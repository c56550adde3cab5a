import InsertBatch.Program
import InsertBatch.Proofs.CacheHistories
import InsertBatch.Proofs.FileTrees

namespace InsertBatch

namespace FileTree

mutual

-- The tree with every file emptied.
def shape : FileTree → FileTree
  | .file _ => .file []
  | .directory entries => .directory (entriesShape entries)

def entriesShape : List (String × FileTree) → List (String × FileTree)
  | [] => []
  | (name, tree) :: rest => (name, shape tree) :: entriesShape rest

end

theorem lookup_entriesShape (entries : List (String × FileTree)) (name : String) :
    (entriesShape entries).lookup name = (entries.lookup name).map shape := by
  induction entries with
  | nil => rfl
  | cons entry entries ih =>
    obtain ⟨first, tree⟩ := entry
    rw [entriesShape, List.lookup_cons, List.lookup_cons, ih]
    cases name == first <;> rfl

theorem shape_edits : Edits shape fun _ _ => true where
  isDirectory := by
    intro tree
    cases tree <;> simp [shape, isDirectory]
  lookup := by
    intro tree name
    cases tree with
    | file content => simp [shape, FileTree.entries]
    | directory entries =>
      simp only [shape, FileTree.entries, lookup_entriesShape]
      cases entries.lookup name <;> rfl
  directories _ _ := rfl

end FileTree

namespace Selection
open FileTree (shape entriesShape shape_edits)
variable {system other : FileSystem} {settings otherSettings : Settings} {inputs : List Path}

-- What is selected depends on names alone.
theorem below_shape (skipped : String → Bool) :
    (dir : Path) → (entries : List (String × FileTree)) →
      below skipped dir (entriesShape entries) = below skipped dir entries
  | _, [] => rfl
  | dir, (name, .file content) :: rest => by
    simp only [entriesShape, shape, below, below_shape skipped dir rest]
  | dir, (name, .directory entries) :: rest => by
    simp only [entriesShape, shape, below, below_shape skipped dir rest,
      below_shape skipped (dir.join name) entries]

theorem find_shape (system : FileSystem) (input : Path) :
    ((system.edit shape).find input).toOption = (system.find input).toOption.map shape := by
  have everything : FileTree.keptAt (fun _ _ => true) (system.start input.components) =
      fun _ => true := by
    funext tree
    unfold FileTree.keptAt
    split <;> rfl
  rw [FileSystem.find_edit shape_edits, everything]
  cases (system.find input).toOption <;> rfl

-- Why nothing is found does not matter.
theorem ofInput_toOption (system : FileSystem) (patterns : List (List Glob.Token)) (input : Path) :
    ofInput system patterns input =
      match (system.find input).toOption with
      | some (.file _) => if hasSqlExtension input then [input] else []
      | some (.directory entries) => below (isSkipped patterns) input entries
      | none => [input] := by
  unfold ofInput
  cases system.find input with
  | error cause => rfl
  | ok tree => cases tree <;> rfl

theorem ofInput_shape (system : FileSystem) (patterns : List (List Glob.Token)) (input : Path) :
    ofInput (system.edit shape) patterns input = ofInput system patterns input := by
  rw [ofInput_toOption, ofInput_toOption, find_shape]
  cases (system.find input).toOption with
  | none => rfl
  | some tree =>
    cases tree with
    | file content => rfl
    | directory entries => exact below_shape _ input entries

theorem paths_shape (system : FileSystem) (settings : Settings) (inputs : List Path) :
    paths (system.edit shape) settings inputs = paths system settings inputs := by
  have same : ofInput (system.edit shape) (patterns settings) =
      ofInput system (patterns settings) :=
    funext (ofInput_shape system (patterns settings))
  rw [paths, paths, same]

-- Contents and settings other than the excluded patterns show in no path.
theorem paths_alike (directory : other.workingDirectory = system.workingDirectory)
    (names : other.root.shape = system.root.shape)
    (exclude : otherSettings.exclude = settings.exclude) (inputs : List Path) :
    paths other otherSettings inputs = paths system settings inputs := by
  have same : other.edit shape = system.edit shape := by
    rw [FileSystem.edit, FileSystem.edit, directory, names]
  have excluded : patterns otherSettings = patterns settings := by
    rw [patterns, patterns, exclude]
  rw [← paths_shape other, ← paths_shape system, same, paths, paths, excluded]

end Selection

theorem Finding.failsCheck_iff (finding : Finding) :
    finding.failsCheck = true ↔ finding.statement.classification.isInsert = true ∧
      0 < finding.statement.parameterCount ∧ finding.statement.isMergeable = false := by
  simp [failsCheck, Nat.pos_iff_ne_zero, and_assoc]

namespace Script

-- An INSERT of the script has parameters but its rows cannot be merged.
def Stranded (rawBackslash : Bool) (source : Bytes) : Prop :=
  ∃ piece ∈ split rawBackslash source,
    (Statement.analyze rawBackslash piece.text).classification.isInsert = true ∧
      0 < (Statement.analyze rawBackslash piece.text).parameterCount ∧
      (Statement.analyze rawBackslash piece.text).isMergeable = false

-- The cache does not show in what fails.
theorem stranded_iff {library : LruLibrary} {settings : Settings} (source : Bytes)
    (created : library.Creates settings.cacheSize) :
    (∃ finding ∈ analyze settings source library, finding.failsCheck = true) ↔
      Stranded settings.effectiveRawBackslash source := by
  have told := analyze_pieces source created
  constructor
  · intro failing
    obtain ⟨finding, member, fails⟩ := failing
    have listed := List.mem_map_of_mem (f := Finding.told) member
    rw [told] at listed
    obtain ⟨piece, inside, same⟩ := List.mem_map.mp listed
    have statement : Statement.analyze settings.effectiveRawBackslash piece.text =
        finding.statement := congrArg Prod.snd same
    refine ⟨piece, inside, ?_⟩
    rw [statement]
    exact finding.failsCheck_iff.mp fails
  · intro stranded
    obtain ⟨piece, inside, fails⟩ := stranded
    have listed := List.mem_map_of_mem (f := fun piece : Piece =>
      (piece.line, Statement.analyze settings.effectiveRawBackslash piece.text)) inside
    rw [← told] at listed
    obtain ⟨finding, member, same⟩ := List.mem_map.mp listed
    have statement : finding.statement =
        Statement.analyze settings.effectiveRawBackslash piece.text := congrArg Prod.snd same
    refine ⟨finding, member, finding.failsCheck_iff.mpr ?_⟩
    rw [statement]
    exact fails

end Script

namespace Selection
variable {library : LruLibrary} {system : FileSystem} {settings : Settings} {path : Path}

theorem analyzeFile_error : (analyzeFile library system settings path).error?.isSome = true ↔
    ∃ cause, system.read path = .error cause := by
  rw [analyzeFile]
  cases system.read path <;> simp [FileResult.error?]

theorem analyzeFile_fails
    (created : ∀ source, system.read path = .ok source → library.Creates settings.cacheSize) :
    (∃ finding ∈ (analyzeFile library system settings path).findings,
      finding.failsCheck = true) ↔
      ∃ source, system.read path = .ok source ∧
        Script.Stranded settings.effectiveRawBackslash source := by
  rw [analyzeFile]
  cases read : system.read path with
  | error cause => simp [FileResult.findings]
  | ok source => simp [FileResult.findings, ← Script.stranded_iff _ (created source read)]

end Selection

namespace Report
variable {report : Report}

theorem hasErrors_iff :
    report.hasErrors = true ↔ ∃ result ∈ report.results, result.error?.isSome = true := by
  rw [hasErrors, bne_iff_ne, ← Nat.pos_iff_ne_zero, errors, List.countP_pos_iff]

theorem checkFailures_iff :
    (report.checkFailures != 0) = true ↔
      ∃ result ∈ report.results, ∃ finding ∈ result.findings, finding.failsCheck = true := by
  rw [bne_iff_ne, ← Nat.pos_iff_ne_zero, checkFailures, List.countP_pos_iff]
  constructor
  · intro failing
    obtain ⟨finding, member, fails⟩ := failing
    obtain ⟨result, listed, inside⟩ := List.mem_flatMap.mp member
    exact ⟨result, listed, finding, inside, fails⟩
  · intro failing
    obtain ⟨result, listed, finding, inside, fails⟩ := failing
    exact ⟨finding, List.mem_flatMap.mpr ⟨result, listed, inside⟩, fails⟩

end Report

namespace Program
variable {environment other : Environment} {line otherLine : CommandLine}
  {arguments : List String} {settings otherSettings : Settings} {report : Report}

-- Errors first, then a failed check.
theorem exitCode_two : exitCode settings report = 2 ↔
    ∃ result ∈ report.results, result.error?.isSome = true := by
  rw [← Report.hasErrors_iff, exitCode]
  split
  · simp_all
  · split <;> simp_all

theorem exitCode_one : exitCode settings report = 1 ↔
    exitCode settings report ≠ 2 ∧ settings.check = true ∧
      ∃ result ∈ report.results, ∃ finding ∈ result.findings, finding.failsCheck = true := by
  rw [← Report.checkFailures_iff, exitCode]
  split
  · simp
  · split <;> simp_all

theorem exitCode_zero : exitCode settings report = 0 ↔
    exitCode settings report ≠ 2 ∧ exitCode settings report ≠ 1 := by
  unfold exitCode
  split
  · simp
  · split <;> simp

-- The settings that a run works with.
def configured (environment : Environment) (line : CommandLine) : Except ConfigError Settings :=
  (Config.load environment.system environment.userFile line.files line.config).map line.settings

-- Something that a run needs cannot be read.
inductive Fails (environment : Environment) (line : CommandLine) : Prop where
  | config {error : ConfigError} (unloaded : configured environment line = .error error)
  | stdin (sole : isStdin line = true) (malformed : environment.stdin.toString? = none)
  | path {settings : Settings} {path : Path} {cause : ReadError}
      (loaded : configured environment line = .ok settings) (named : isStdin line = false)
      (matched : path ∈ Selection.paths environment.system settings line.files)
      (unread : environment.system.read path = .error cause)

-- The scripts that a run analyzes.
inductive Analyzes (environment : Environment) (line : CommandLine) (settings : Settings) :
    Bytes → Prop where
  | stdin (sole : isStdin line = true) (decoded : environment.stdin.toString?.isSome = true) :
      Analyzes environment line settings environment.stdin
  | path {path : Path} {source : Bytes} (named : isStdin line = false)
      (matched : path ∈ Selection.paths environment.system settings line.files)
      (read : environment.system.read path = .ok source) :
      Analyzes environment line settings source

-- The library has the maps that a run asks for, one for each script that it analyzes.
def CacheCreated (environment : Environment) (line : CommandLine) : Prop :=
  ∀ settings source, configured environment line = .ok settings →
    Analyzes environment line settings source → environment.library.Creates settings.cacheSize

-- One of the scripts would not pass a check.
def Strands (environment : Environment) (line : CommandLine) : Prop :=
  ∃ settings source, configured environment line = .ok settings ∧
    Analyzes environment line settings source ∧
    Script.Stranded settings.effectiveRawBackslash source

structure ExitStatus (environment : Environment) (line : CommandLine) (code : Nat) : Prop where
  two : code = 2 ↔ Fails environment line
  one : code = 1 ↔ code ≠ 2 ∧ line.check = true ∧ Strands environment line
  zero : code = 0 ↔ code ≠ 2 ∧ code ≠ 1

theorem status_fails (fails : Fails environment line) : ExitStatus environment line 2 where
  two := iff_of_true rfl fails
  one := by simp
  zero := by simp

theorem status_report (check : settings.check = line.check)
    (errors : (∃ result ∈ report.results, result.error?.isSome = true) ↔
      Fails environment line)
    (failing : (∃ result ∈ report.results, ∃ finding ∈ result.findings,
        finding.failsCheck = true) ↔ Strands environment line) :
    ExitStatus environment line (exitCode settings report) where
  two := exitCode_two.trans errors
  one := by rw [exitCode_one, failing, check]
  zero := exitCode_zero

theorem status_stdin (created : CacheCreated environment line)
    (loaded : configured environment line = .ok settings) (sole : isStdin line = true)
    (decoded : environment.stdin.toString?.isSome = true) (check : settings.check = line.check) :
    ExitStatus environment line (exitCode settings
      ⟨[.analyzed "-" (Script.analyze settings environment.stdin environment.library)]⟩) := by
  apply status_report check
  · apply iff_of_false
    · simp [FileResult.error?]
    · intro fails
      cases fails with
      | config unloaded => rw [loaded] at unloaded; cases unloaded
      | stdin _ malformed => rw [malformed] at decoded; cases decoded
      | path _ named => rw [sole] at named; cases named
  · simp only [List.mem_singleton, exists_eq_left, FileResult.findings,
      Script.stranded_iff _ (created _ _ loaded (.stdin sole decoded))]
    constructor
    · intro stranded
      exact ⟨settings, environment.stdin, loaded, .stdin sole decoded, stranded⟩
    · intro stranded
      obtain ⟨others, source, there, analyzed, stranded⟩ := stranded
      obtain rfl : settings = others := Except.ok.inj (loaded.symm.trans there)
      cases analyzed with
      | stdin => exact stranded
      | path named => rw [sole] at named; cases named

theorem status_files (created : CacheCreated environment line)
    (loaded : configured environment line = .ok settings) (named : isStdin line = false)
    (check : settings.check = line.check) :
    ExitStatus environment line (exitCode settings
      (Selection.run environment.system settings line.files environment.library)) := by
  apply status_report check
  · simp only [Selection.run, List.mem_map, exists_exists_and_eq_and, Selection.analyzeFile_error]
    constructor
    · intro failing
      obtain ⟨path, matched, cause, unread⟩ := failing
      exact .path loaded named matched unread
    · intro fails
      cases fails with
      | config unloaded => rw [loaded] at unloaded; cases unloaded
      | stdin sole => rw [sole] at named; cases named
      | path there _ matched unread =>
        cases loaded.symm.trans there
        exact ⟨_, matched, _, unread⟩
  · -- A map is asked for once the file is read.
    have checked {path : Path}
        (matched : path ∈ Selection.paths environment.system settings line.files) :=
      Selection.analyzeFile_fails fun source read =>
        created settings source loaded (.path named matched read)
    simp only [Selection.run, List.mem_map, exists_exists_and_eq_and]
    constructor
    · intro failing
      obtain ⟨path, matched, failing⟩ := failing
      obtain ⟨source, read, stranded⟩ := (checked matched).mp failing
      exact ⟨settings, source, loaded, .path named matched read, stranded⟩
    · intro failing
      obtain ⟨others, source, there, analyzed, stranded⟩ := failing
      obtain rfl : settings = others := Except.ok.inj (loaded.symm.trans there)
      cases analyzed with
      | stdin sole => rw [sole] at named; cases named
      | path _ matched read => exact ⟨_, matched, (checked matched).mpr ⟨source, read, stranded⟩⟩

theorem configFailure_code (error : ConfigError) : (configFailure error).code = 2 := by
  cases error <;> rfl

theorem run_status (environment : Environment)
    (accepted : CommandLine.read arguments = .run line) (created : CacheCreated environment line) :
    ExitStatus environment line (run environment arguments).code := by
  rw [run, accepted]
  simp only
  cases load : Config.load environment.system environment.userFile line.files line.config with
  | error error =>
    have unloaded : configured environment line = .error error := by
      rw [configured, load]
      rfl
    rw [configFailure_code]
    exact status_fails (.config unloaded)
  | ok base =>
    have loaded : configured environment line = .ok (line.settings base) := by
      rw [configured, load]
      rfl
    simp only [analyze]
    cases sole : isStdin line with
    | false => exact status_files created loaded sole rfl
    | true =>
      cases decoded : environment.stdin.toString? with
      | none => exact status_fails (.stdin sole decoded)
      | some text => exact status_stdin created loaded sole (by rw [decoded]; rfl) rfl

-- Settings that select the same files and divide them the same way. Batches, the cache
-- and what is shown are free.
structure SameReading (settings other : Settings) : Prop where
  rawBackslash : other.rawBackslash = settings.rawBackslash
  sqlMode : other.sqlMode = settings.sqlMode
  exclude : other.exclude = settings.exclude

theorem SameReading.symm (same : SameReading settings otherSettings) :
    SameReading otherSettings settings :=
  ⟨same.rawBackslash.symm, same.sqlMode.symm, same.exclude.symm⟩

theorem SameReading.effective (same : SameReading settings otherSettings) :
    otherSettings.effectiveRawBackslash = settings.effectiveRawBackslash := by
  unfold Settings.effectiveRawBackslash
  rw [same.rawBackslash, same.sqlMode]

inductive SameLoading : Except ConfigError Settings → Except ConfigError Settings → Prop where
  | failed {error other : ConfigError} : SameLoading (.error error) (.error other)
  | loaded {settings other : Settings} (same : SameReading settings other) :
      SameLoading (.ok settings) (.ok other)

namespace SameLoading
variable {first second : Except ConfigError Settings} {error : ConfigError}

theorem symm (same : SameLoading first second) : SameLoading second first := by
  cases same with
  | failed => exact .failed
  | loaded reading => exact .loaded reading.symm

theorem map {change otherChange : Settings → Settings} (same : SameLoading first second)
    (keeps : ∀ {settings other}, SameReading settings other →
      SameReading (change settings) (otherChange other)) :
    SameLoading (first.map change) (second.map otherChange) := by
  cases same with
  | failed => exact .failed
  | loaded reading => exact .loaded (keeps reading)

theorem error_right (same : SameLoading (.error error) second) :
    ∃ other, second = .error other := by
  cases same with
  | failed => exact ⟨_, rfl⟩

theorem ok_right (same : SameLoading (.ok settings) second) :
    ∃ other, second = .ok other ∧ SameReading settings other := by
  cases same with
  | loaded reading => exact ⟨_, rfl, reading⟩

end SameLoading

-- Two runs that differ at most in flags and options that the exit status does not depend on.
-- Where the options come from is free too, as long as no file that is matched changes.
structure Alike (environment : Environment) (line : CommandLine) (other : Environment)
    (otherLine : CommandLine) : Prop where
  files : otherLine.files = line.files
  rawBackslash : otherLine.rawBackslash = line.rawBackslash
  sqlMode : otherLine.sqlMode = line.sqlMode
  exclude : otherLine.exclude = line.exclude
  check : otherLine.check = line.check
  loading : SameLoading
    (Config.load environment.system environment.userFile line.files line.config)
    (Config.load other.system other.userFile otherLine.files otherLine.config)
  stdin : other.stdin = environment.stdin
  directory : other.system.workingDirectory = environment.system.workingDirectory
  names : other.system.root.shape = environment.system.root.shape
  contents : ∀ settings, configured environment line = .ok settings →
    ∀ path ∈ Selection.paths environment.system settings line.files,
      other.system.read path = environment.system.read path

namespace Alike
variable (alike : Alike environment line other otherLine)
include alike

theorem isStdin_eq : isStdin otherLine = isStdin line := by
  rw [isStdin, isStdin, alike.files]

theorem configured : SameLoading (configured environment line) (configured other otherLine) := by
  apply alike.loading.map
  intro base otherBase same
  constructor
  · simp only [CommandLine.settings, alike.rawBackslash, same.rawBackslash]
  · simp only [CommandLine.settings, alike.sqlMode, same.sqlMode]
  · simp only [CommandLine.settings, alike.exclude, same.exclude]

theorem paths_eq (same : SameReading settings otherSettings) :
    Selection.paths other.system otherSettings otherLine.files =
      Selection.paths environment.system settings line.files := by
  rw [alike.files]
  exact Selection.paths_alike alike.directory alike.names same.exclude line.files

theorem symm : Alike other otherLine environment line where
  files := alike.files.symm
  rawBackslash := alike.rawBackslash.symm
  sqlMode := alike.sqlMode.symm
  exclude := alike.exclude.symm
  check := alike.check.symm
  loading := alike.loading.symm
  stdin := alike.stdin.symm
  directory := alike.directory.symm
  names := alike.names.symm
  contents := by
    intro otherSettings loaded path matched
    have loading := alike.configured.symm
    rw [loaded] at loading
    obtain ⟨settings, there, same⟩ := loading.ok_right
    rw [alike.paths_eq same.symm] at matched
    exact (alike.contents settings there path matched).symm

theorem fails (fails : Fails environment line) : Fails other otherLine := by
  have loading := alike.configured
  cases fails with
  | config unloaded =>
    rw [unloaded] at loading
    obtain ⟨error, there⟩ := loading.error_right
    exact .config there
  | stdin sole malformed =>
    rw [← alike.isStdin_eq] at sole
    rw [← alike.stdin] at malformed
    exact .stdin sole malformed
  | path loaded named matched unread =>
    rw [loaded] at loading
    obtain ⟨settings, there, same⟩ := loading.ok_right
    rw [← alike.contents _ loaded _ matched] at unread
    rw [← alike.paths_eq same] at matched
    rw [← alike.isStdin_eq] at named
    exact .path there named matched unread

theorem analyzes {source : Bytes} (loaded : Program.configured environment line = .ok settings)
    (same : SameReading settings otherSettings)
    (analyzed : Analyzes environment line settings source) :
    Analyzes other otherLine otherSettings source := by
  cases analyzed with
  | stdin sole decoded =>
    rw [← alike.isStdin_eq] at sole
    rw [← alike.stdin] at decoded ⊢
    exact .stdin sole decoded
  | path named matched read =>
    rw [← alike.contents _ loaded _ matched] at read
    rw [← alike.paths_eq same] at matched
    rw [← alike.isStdin_eq] at named
    exact .path named matched read

theorem strands (strands : Strands environment line) : Strands other otherLine := by
  obtain ⟨settings, source, loaded, analyzed, stranded⟩ := strands
  have loading := alike.configured
  rw [loaded] at loading
  obtain ⟨otherSettings, there, same⟩ := loading.ok_right
  refine ⟨otherSettings, source, there, alike.analyzes loaded same analyzed, ?_⟩
  rw [same.effective]
  exact stranded

end Alike

-- The code follows from what fails and what a check does not pass.
theorem ExitStatus.code_eq {code otherCode : Nat} (status : ExitStatus environment line code)
    (otherStatus : ExitStatus other otherLine otherCode)
    (alike : Alike environment line other otherLine) : otherCode = code := by
  have fails : Fails environment line ↔ Fails other otherLine := ⟨alike.fails, alike.symm.fails⟩
  have strands : Strands environment line ↔ Strands other otherLine :=
    ⟨alike.strands, alike.symm.strands⟩
  have two : code = 2 ↔ otherCode = 2 := (status.two.trans fails).trans otherStatus.two.symm
  have one : code = 1 ↔ otherCode = 1 := by
    rw [status.one, otherStatus.one, strands, alike.check, ne_eq, two]
  have zero := status.zero
  have otherZero := otherStatus.zero
  omega

-- The exit status says whether everything was read and, if a check was asked for, whether
-- every parameterized INSERT can be merged. Runs that are alike exit alike. Both need their
-- maps from the library.
theorem run_code (environment : Environment) (arguments : List String) (line : CommandLine)
    (accepted : CommandLine.read arguments = .run line)
    (created : CacheCreated environment line) :
    ExitStatus environment line (run environment arguments).code ∧
      ∀ (other : Environment) (otherArguments : List String) (otherLine : CommandLine),
        CommandLine.read otherArguments = .run otherLine → CacheCreated other otherLine →
        Alike environment line other otherLine →
        (run other otherArguments).code = (run environment arguments).code := by
  have status := run_status environment accepted created
  refine ⟨status, ?_⟩
  intro other otherArguments otherLine otherAccepted otherCreated alike
  exact status.code_eq (run_status other otherAccepted otherCreated) alike

-- Other batches, another cache and no output, from another configuration file.
theorem run_code_quiet :
    let tree (options : String) : FileTree := .directory
      [("sqlrewrite.toml", .file (Bytes.ofString options)),
       ("a.sql", .file (Bytes.ofString "SELECT ?;\nINSERT INTO t SELECT ?"))]
    let environment : Environment :=
      { system := ⟨tree "cache_size = 0\n", []⟩, library := .exact }
    let other : Environment :=
      { system := ⟨tree "max_allowed_packet = 64\n", []⟩,
        userFile := some (Bytes.ofString "cache_size = 1\n"), terminal := true,
        library := .exact }
    let line : CommandLine := { files := [⟨"a.sql"⟩], check := true }
    let otherLine : CommandLine :=
      { files := [⟨"a.sql"⟩], check := true, quiet := true, explain := true,
        separateRows := true, threads := some 4 }
    let arguments := ["--check", "a.sql"]
    let otherArguments := ["-qt4", "--check", "a.sql", "--explain",
      "--no-rewrite-batched-statements"]
    CommandLine.read arguments = .run line ∧ CommandLine.read otherArguments = .run otherLine ∧
      CacheCreated environment line ∧ CacheCreated other otherLine ∧
      Alike environment line other otherLine ∧ ExitStatus environment line 1 ∧
      (run other otherArguments).code = 1 := by
  intro tree environment other line otherLine arguments otherArguments
  have accepted : CommandLine.read arguments = .run line := by decide +kernel
  have otherAccepted : CommandLine.read otherArguments = .run otherLine := by decide +kernel
  have code : (run environment arguments).code = 1 := by decide +kernel
  have load : Config.load environment.system environment.userFile line.files line.config =
      .ok { cacheSize := 0 } := by decide +kernel
  have otherLoad : Config.load other.system other.userFile otherLine.files otherLine.config =
      .ok { maxPacket := 64 } := by decide +kernel
  have alike : Alike environment line other otherLine := by
    refine ⟨rfl, rfl, rfl, rfl, rfl, ?_, rfl, rfl, ?_, ?_⟩
    · rw [load, otherLoad]
      exact .loaded ⟨rfl, rfl, rfl⟩
    · simp only [environment, other, tree, FileTree.shape, FileTree.entriesShape]
    · intro settings loaded path matched
      rw [configured, load] at loaded
      obtain rfl := Except.ok.inj loaded
      have single : Selection.paths environment.system (line.settings { cacheSize := 0 })
          line.files = [⟨"a.sql"⟩] := by decide +kernel
      rw [single] at matched
      obtain rfl := List.mem_singleton.mp matched
      decide +kernel
  have created : CacheCreated environment line := fun _ _ _ _ => LruLibrary.exact_creates _
  have otherCreated : CacheCreated other otherLine := fun _ _ _ _ => LruLibrary.exact_creates _
  obtain ⟨status, same⟩ := run_code environment arguments line accepted created
  rw [code] at status same
  exact ⟨accepted, otherAccepted, created, otherCreated, alike, status,
    same other otherArguments otherLine otherAccepted otherCreated alike⟩

end Program
end InsertBatch
