import InsertBatch.Config.Load
import InsertBatch.Proofs.ServerModes

namespace InsertBatch

-- The options of a configuration file.
inductive ConfigOption where
  | rawBackslash
  | mergeRows
  | joinStatements
  | maxPacket
  | cacheSize
  | sqlMode
  | exclude
deriving DecidableEq, Repr

namespace ConfigOption

def key : ConfigOption → String
  | .rawBackslash => "no_backslash_escapes"
  | .mergeRows => "rewrite_batched_statements"
  | .joinStatements => "allow_multi_queries"
  | .maxPacket => "max_allowed_packet"
  | .cacheSize => "cache_size"
  | .sqlMode => "sql_mode"
  | .exclude => "exclude"

-- Two settings agree in the field of an option.
def Same (one other : Settings) : ConfigOption → Prop
  | .rawBackslash => one.rawBackslash = other.rawBackslash
  | .mergeRows => one.mergeRows = other.mergeRows
  | .joinStatements => one.joinStatements = other.joinStatements
  | .maxPacket => one.maxPacket = other.maxPacket
  | .cacheSize => one.cacheSize = other.cacheSize
  | .sqlMode => one.sqlMode = other.sqlMode
  | .exclude => one.exclude = other.exclude

-- They agree in all that no option sets.
structure SameOtherwise (one other : Settings) : Prop where
  check : one.check = other.check
  explain : one.explain = other.explain
  verbose : one.verbose = other.verbose
  quiet : one.quiet = other.quiet
  noColor : one.noColor = other.noColor
  forceColor : one.forceColor = other.forceColor
  threads : one.threads = other.threads
  singleProcess : one.singleProcess = other.singleProcess

theorem Same.refl (settings : Settings) (field : ConfigOption) : Same settings settings field := by
  cases field <;> rfl

theorem Same.trans {one two three : Settings} {option : ConfigOption} (first : Same one two option)
    (second : Same two three option) : Same one three option := by
  cases option <;> exact Eq.trans first second

theorem SameOtherwise.refl (settings : Settings) : SameOtherwise settings settings :=
  ⟨rfl, rfl, rfl, rfl, rfl, rfl, rfl, rfl⟩

theorem SameOtherwise.trans {one two three : Settings} (first : SameOtherwise one two)
    (second : SameOtherwise two three) : SameOtherwise one three where
  check := first.check.trans second.check
  explain := first.explain.trans second.explain
  verbose := first.verbose.trans second.verbose
  quiet := first.quiet.trans second.quiet
  noColor := first.noColor.trans second.noColor
  forceColor := first.forceColor.trans second.forceColor
  threads := first.threads.trans second.threads
  singleProcess := first.singleProcess.trans second.singleProcess

end ConfigOption

namespace Assignment
open ConfigOption (Same SameOtherwise)
open Text (Between trim)
variable {key : String} {value : Toml.Value} {assignment one other : Assignment}
  {settings : Settings} {field : ConfigOption}

def option : Assignment → ConfigOption
  | .rawBackslash _ => .rawBackslash
  | .mergeRows _ => .mergeRows
  | .joinStatements _ => .joinStatements
  | .maxPacket _ => .maxPacket
  | .cacheSize _ => .cacheSize
  | .sqlMode _ => .sqlMode
  | .exclude _ => .exclude

-- The values that pass the check of an option, and what each of them sets.
inductive Takes : Toml.Value → Assignment → Prop where
  | rawBackslash : Takes (.boolean b) (.rawBackslash b)
  | mergeRows : Takes (.boolean b) (.mergeRows b)
  | joinStatements : Takes (.boolean b) (.joinStatements b)
  | maxPacket (positive : 0 < n) : Takes (.integer n) (.maxPacket n.toNat)
  | cacheSize (natural : 0 ≤ n) : Takes (.integer n) (.cacheSize n.toNat)
  | sqlMode (plain : ∀ entry, Between ',' text.toList entry → ∀ c ∈ trim entry, SqlMode.Plain c) :
      Takes (.string text) (.sqlMode (SqlMode.parse text))
  | exclude : Takes (.array items) (.exclude (items.filterMap Toml.Value.asText?))

theorem map_ok {result : Except ε α} {wrap : α → β} {made : β} :
    result.map wrap = .ok made ↔ ∃ found, result = .ok found ∧ wrap found = made := by
  cases result <;> simp [Except.map]

theorem asBool_ok {b : Bool} : asBool key value = .ok b ↔ value = .boolean b := by
  cases value <;> simp [asBool]

theorem asNat_ok {n : Nat} : asNat key value = .ok n ↔
    ∃ m : Int, value = .integer m ∧ 0 ≤ m ∧ m.toNat = n := by
  cases value with
  | integer m =>
    simp only [asNat, Toml.Value.integer.injEq, exists_eq_left']
    split
    · rename_i natural
      simp [natural]
    · rename_i negative
      simp [negative]
  | _ => simp [asNat]

theorem asPacket_ok {n : Nat} : asPacket key value = .ok n ↔
    ∃ m : Int, value = .integer m ∧ 0 < m ∧ m.toNat = n := by
  have checked : asPacket key value = .ok n ↔ asNat key value = .ok n ∧ n ≠ 0 := by
    unfold asPacket
    split
    · rename_i zero
      rw [zero]
      simp only [reduceCtorEq, Except.ok.injEq, false_iff, not_and, not_not]
      exact Eq.symm
    · rename_i nonzero
      refine ⟨?_, And.left⟩
      intro taken
      refine ⟨taken, ?_⟩
      intro zero
      exact nonzero (zero ▸ taken)
  rw [checked, asNat_ok]
  constructor
  · intro found
    obtain ⟨⟨m, rfl, natural, rfl⟩, nonzero⟩ := found
    exact ⟨m, rfl, by omega, rfl⟩
  · intro found
    obtain ⟨m, rfl, positive, rfl⟩ := found
    exact ⟨⟨m, rfl, by omega, rfl⟩, by omega⟩

theorem mapError_ok {result : Except ε α} {wrap : ε → δ} {made : α} :
    result.mapError wrap = .ok made ↔ result = .ok made := by
  cases result <;> simp [Except.mapError]

theorem asMode_ok {mode : SqlMode} : asMode key value = .ok mode ↔ ∃ text, value = .string text ∧
    (∀ entry, Between ',' text.toList entry → ∀ c ∈ trim entry, SqlMode.Plain c) ∧
      SqlMode.parse text = mode := by
  cases value with
  | string text =>
    have passed : asMode key (.string text) = .ok mode ↔ SqlMode.parseStrict text = .ok mode :=
      mapError_ok
    simp only [passed, Toml.Value.string.injEq, exists_eq_left']
    rw [← SqlMode.parseStrict_ok]
    constructor
    · intro accepted
      exact ⟨⟨mode, accepted⟩, (SqlMode.parseStrict_agrees accepted).symm⟩
    · intro found
      obtain ⟨⟨found, accepted⟩, rfl⟩ := found
      rw [accepted, SqlMode.parseStrict_agrees accepted]
  | _ => simp [asMode]

theorem asTexts_ok {patterns : List String} : asTexts key value = .ok patterns ↔
    ∃ items, value = .array items ∧ items.filterMap Toml.Value.asText? = patterns := by
  cases value <;> simp [asTexts]

theorem ofEntry_unknown (unknown : ∀ known : ConfigOption, key ≠ known.key)
    (value : Toml.Value) : ofEntry key value = .error (.unknownOption key) := by
  unfold ofEntry
  split_ifs with first second third fourth fifth sixth seventh
  · exact absurd first (unknown .rawBackslash)
  · exact absurd second (unknown .mergeRows)
  · exact absurd third (unknown .joinStatements)
  · exact absurd fourth (unknown .maxPacket)
  · exact absurd fifth (unknown .cacheSize)
  · exact absurd sixth (unknown .sqlMode)
  · exact absurd seventh (unknown .exclude)
  · rfl

theorem ofEntry_takes (taken : Takes value assignment) :
    ofEntry assignment.option.key value = .ok assignment := by
  cases taken with
  | rawBackslash => rfl
  | mergeRows => rfl
  | joinStatements => rfl
  | maxPacket positive => exact map_ok.mpr ⟨_, asPacket_ok.mpr ⟨_, rfl, positive, rfl⟩, rfl⟩
  | cacheSize natural => exact map_ok.mpr ⟨_, asNat_ok.mpr ⟨_, rfl, natural, rfl⟩, rfl⟩
  | sqlMode plain => exact map_ok.mpr ⟨_, asMode_ok.mpr ⟨_, rfl, plain, rfl⟩, rfl⟩
  | exclude => rfl

theorem takes_of_ofEntry {known : ConfigOption}
    (accepted : ofEntry known.key value = .ok assignment) :
    assignment.option = known ∧ Takes value assignment := by
  cases known with
  | rawBackslash =>
    obtain ⟨b, checked, rfl⟩ := map_ok.mp accepted
    obtain rfl := asBool_ok.mp checked
    exact ⟨rfl, .rawBackslash⟩
  | mergeRows =>
    obtain ⟨b, checked, rfl⟩ := map_ok.mp accepted
    obtain rfl := asBool_ok.mp checked
    exact ⟨rfl, .mergeRows⟩
  | joinStatements =>
    obtain ⟨b, checked, rfl⟩ := map_ok.mp accepted
    obtain rfl := asBool_ok.mp checked
    exact ⟨rfl, .joinStatements⟩
  | maxPacket =>
    obtain ⟨n, checked, rfl⟩ := map_ok.mp accepted
    obtain ⟨m, rfl, positive, rfl⟩ := asPacket_ok.mp checked
    exact ⟨rfl, .maxPacket positive⟩
  | cacheSize =>
    obtain ⟨n, checked, rfl⟩ := map_ok.mp accepted
    obtain ⟨m, rfl, natural, rfl⟩ := asNat_ok.mp checked
    exact ⟨rfl, .cacheSize natural⟩
  | sqlMode =>
    obtain ⟨mode, checked, rfl⟩ := map_ok.mp accepted
    obtain ⟨text, rfl, plain, rfl⟩ := asMode_ok.mp checked
    exact ⟨rfl, .sqlMode plain⟩
  | exclude =>
    obtain ⟨patterns, checked, rfl⟩ := map_ok.mp accepted
    obtain ⟨items, rfl, rfl⟩ := asTexts_ok.mp checked
    exact ⟨rfl, .exclude⟩

-- An entry is accepted when its key is that of an option and its value passes the check.
theorem ofEntry_ok : ofEntry key value = .ok assignment ↔
    assignment.option.key = key ∧ Takes value assignment := by
  constructor
  · intro accepted
    by_cases known : ∃ known : ConfigOption, key = known.key
    · obtain ⟨known, rfl⟩ := known
      obtain ⟨rfl, taken⟩ := takes_of_ofEntry accepted
      exact ⟨rfl, taken⟩
    · rw [ofEntry_unknown (not_exists.mp known)] at accepted
      cases accepted
  · intro found
    obtain ⟨rfl, taken⟩ := found
    exact ofEntry_takes taken

theorem apply_comm (apart : one.option ≠ other.option) (settings : Settings) :
    one.apply (other.apply settings) = other.apply (one.apply settings) := by
  cases one <;> cases other <;> first | rfl | exact absurd rfl apart

theorem apply_same (apart : assignment.option ≠ field) (settings : Settings) :
    Same settings (assignment.apply settings) field := by
  cases assignment <;> cases field <;> first | rfl | exact absurd rfl apart

-- What an entry sets does not depend on what was there.
theorem apply_own (assignment : Assignment) (one other : Settings) :
    Same (assignment.apply one) (assignment.apply other) assignment.option := by
  cases assignment <;> rfl

theorem apply_otherwise (assignment : Assignment) (settings : Settings) :
    SameOtherwise settings (assignment.apply settings) := by
  cases assignment <;> exact ⟨rfl, rfl, rfl, rfl, rfl, rfl, rfl, rfl⟩

end Assignment

namespace Settings
open Assignment (Takes)
open ConfigOption (Same SameOtherwise)
variable {value : Toml.Value} {settings loaded : Settings}
  {entries other : List (String × Toml.Value)} {field : ConfigOption}

def Distinct (entries : List (String × Toml.Value)) : Prop := (entries.map Prod.fst).Nodup

theorem toOption_some {result : Except ε α} {made : α} :
    result.toOption = some made ↔ result = .ok made := by
  cases result <;> simp [Except.toOption]

theorem assign_cons_ok {entry : String × Toml.Value} :
    settings.assign (entry :: entries) = .ok loaded ↔
      ∃ assignment, Assignment.ofEntry entry.1 entry.2 = .ok assignment ∧
        (assignment.apply settings).assign entries = .ok loaded := by
  rw [assign]
  cases Assignment.ofEntry entry.1 entry.2 <;> simp

theorem assign_swap {first second : String × Toml.Value} (apart : first.1 ≠ second.1) :
    settings.assign (first :: second :: entries) = .ok loaded →
      settings.assign (second :: first :: entries) = .ok loaded := by
  intro accepted
  obtain ⟨one, read, accepted⟩ := assign_cons_ok.mp accepted
  obtain ⟨two, also, accepted⟩ := assign_cons_ok.mp accepted
  refine assign_cons_ok.mpr ⟨two, also, assign_cons_ok.mpr ⟨one, read, ?_⟩⟩
  have distinct : one.option ≠ two.option := by
    intro same
    apply apart
    rw [← (Assignment.ofEntry_ok.mp read).1, ← (Assignment.ofEntry_ok.mp also).1, same]
  rwa [Assignment.apply_comm distinct]

theorem assign_perm (order : entries.Perm other) (distinct : Distinct entries)
    (settings loaded : Settings) :
    settings.assign entries = .ok loaded ↔ settings.assign other = .ok loaded := by
  induction order generalizing settings with
  | nil => rfl
  | cons entry _ ih =>
    simp only [assign_cons_ok, ih (List.nodup_cons.mp distinct).2]
  | swap first second rest =>
    have apart : second.1 ≠ first.1 := by
      intro same
      exact (List.nodup_cons.mp distinct).1 (by simp [same])
    exact ⟨assign_swap apart, assign_swap apart.symm⟩
  | trans order _ ih ih' =>
    rw [ih distinct, ih' ((order.map Prod.fst).nodup_iff.mp distinct)]

theorem assign_accepts (settings : Settings) :
    (∃ loaded, settings.assign entries = .ok loaded) ↔ ∀ entry ∈ entries,
      ∃ assignment : Assignment, assignment.option.key = entry.1 ∧ Takes entry.2 assignment := by
  induction entries generalizing settings with
  | nil => simp [assign]
  | cons entry rest ih =>
    simp only [assign_cons_ok, List.forall_mem_cons, ← Assignment.ofEntry_ok]
    simp only [← Assignment.ofEntry_ok] at ih
    constructor
    · intro found
      obtain ⟨loaded, assignment, read, accepted⟩ := found
      exact ⟨⟨assignment, read⟩, (ih _).mp ⟨loaded, accepted⟩⟩
    · intro found
      obtain ⟨⟨assignment, read⟩, others⟩ := found
      obtain ⟨loaded, accepted⟩ := (ih (assignment.apply settings)).mpr others
      exact ⟨loaded, assignment, read, accepted⟩

theorem assign_keeps (accepted : settings.assign entries = .ok loaded)
    (absent : ∀ entry ∈ entries, entry.1 ≠ field.key) : Same settings loaded field := by
  induction entries generalizing settings with
  | nil =>
    obtain rfl := Except.ok.inj accepted
    exact .refl settings field
  | cons entry rest ih =>
    obtain ⟨assignment, read, accepted⟩ := assign_cons_ok.mp accepted
    have apart : assignment.option ≠ field := by
      intro same
      apply absent entry List.mem_cons_self
      rw [← same, (Assignment.ofEntry_ok.mp read).1]
    have later := ih accepted fun entry listed => absent entry (List.mem_cons_of_mem _ listed)
    exact (Assignment.apply_same apart settings).trans later

theorem assign_takes (distinct : Distinct entries) (accepted : settings.assign entries = .ok loaded)
    {assignment : Assignment} (listed : (assignment.option.key, value) ∈ entries)
    (taken : Takes value assignment) :
    Same (assignment.apply settings) loaded assignment.option := by
  induction entries generalizing settings with
  | nil => cases listed
  | cons entry rest ih =>
    obtain ⟨found, read, later⟩ := assign_cons_ok.mp accepted
    obtain ⟨fresh, distinct⟩ := List.nodup_cons.mp distinct
    rcases List.mem_cons.mp listed with rfl | listed
    · have same : found = assignment :=
        Except.ok.inj (read.symm.trans (Assignment.ofEntry_takes taken))
      subst same
      refine assign_keeps later ?_
      intro entry listed same
      exact fresh (List.mem_map.mpr ⟨entry, listed, same⟩)
    · have first := assignment.apply_own settings (found.apply settings)
      exact first.trans (ih distinct later listed)

theorem assign_otherwise (accepted : settings.assign entries = .ok loaded) :
    SameOtherwise settings loaded := by
  induction entries generalizing settings with
  | nil =>
    obtain rfl := Except.ok.inj accepted
    exact .refl settings
  | cons entry rest ih =>
    obtain ⟨assignment, _, accepted⟩ := assign_cons_ok.mp accepted
    exact (assignment.apply_otherwise settings).trans (ih accepted)

-- What the entries of a file do to the settings they start from, in whatever order
-- they come.
structure OrderFree (settings : Settings) (entries : List (String × Toml.Value)) : Prop where
  order : ∀ other, other.Perm entries →
    (settings.assign other).toOption = (settings.assign entries).toOption
  accepted : (∃ loaded, settings.assign entries = .ok loaded) ↔ ∀ entry ∈ entries,
    ∃ assignment : Assignment, assignment.option.key = entry.1 ∧ Takes entry.2 assignment
  taken : ∀ loaded, settings.assign entries = .ok loaded → ∀ assignment : Assignment, ∀ value,
    (assignment.option.key, value) ∈ entries → Takes value assignment →
      Same (assignment.apply settings) loaded assignment.option
  kept : ∀ loaded, settings.assign entries = .ok loaded → ∀ field : ConfigOption,
    (∀ entry ∈ entries, entry.1 ≠ field.key) → Same settings loaded field
  others : ∀ loaded, settings.assign entries = .ok loaded → SameOtherwise settings loaded

-- Entries of distinct keys are accepted or refused together, and set the same, in any
-- order.
theorem assign_orderFree (settings : Settings) (distinct : Distinct entries) :
    OrderFree settings entries where
  order other order := by
    ext loaded
    rw [toOption_some, toOption_some, assign_perm order.symm distinct settings loaded]
  accepted := assign_accepts settings
  taken _ accepted _ _ listed taken := assign_takes distinct accepted listed taken
  kept _ accepted _ absent := assign_keeps accepted absent
  others _ accepted := assign_otherwise accepted

end Settings

namespace Config
open Settings (Distinct OrderFree)
variable {entry : String × Toml.Value}

theorem lastOfEach_mem {table : Toml.Table} (listed : entry ∈ lastOfEach table) : entry ∈ table := by
  induction table with
  | nil => cases listed
  | cons first rest ih =>
    rw [lastOfEach] at listed
    split at listed
    · exact List.mem_cons_of_mem _ (ih listed)
    · rcases List.mem_cons.mp listed with rfl | listed
      · exact List.mem_cons_self
      · exact List.mem_cons_of_mem _ (ih listed)

theorem lastOfEach_distinct (table : Toml.Table) : Distinct (lastOfEach table) := by
  induction table with
  | nil => exact .nil
  | cons first rest ih =>
    rw [lastOfEach]
    split
    · exact ih
    · rename_i fresh
      refine List.nodup_cons.mpr ⟨?_, ih⟩
      intro again
      obtain ⟨entry, listed, same⟩ := List.mem_map.mp again
      exact fresh (List.any_eq_true.mpr ⟨entry, lastOfEach_mem listed, beq_iff_eq.mpr same⟩)

-- What is set from a file has distinct keys, whatever stands in the file.
theorem entriesOf_distinct (options : Toml.Table) : Distinct (entriesOf options) :=
  lastOfEach_distinct _

theorem entriesOf_orderFree :
    Distinct (entriesOf [("SQL_Mode", .string "ansi"), ("cache_size", .integer 3)]) ∧
      OrderFree {} (entriesOf [("SQL_Mode", .string "ansi"), ("cache_size", .integer 3)]) := by
  have distinct := entriesOf_distinct [("SQL_Mode", .string "ansi"), ("cache_size", .integer 3)]
  exact ⟨distinct, Settings.assign_orderFree {} distinct⟩

end Config
end InsertBatch
