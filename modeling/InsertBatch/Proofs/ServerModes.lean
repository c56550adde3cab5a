import InsertBatch.Config.Assignment
import InsertBatch.Proofs.Fields
import InsertBatch.Proofs.LetterCase
import Mathlib.Data.List.DropRight
import Mathlib.Data.List.Nodup
import Mathlib.Tactic.Tauto

namespace InsertBatch

namespace Text
variable {c : Char} {chars : List Char}

theorem trim_rdropWhile (chars : List Char) :
    trim chars = (chars.dropWhile isBlank).rdropWhile isBlank := rfl

theorem trim_toUpper (chars : List Char) :
    trim (chars.map Char.toUpper) = (trim chars).map Char.toUpper := by
  have same : isBlank ∘ Char.toUpper = isBlank := funext isBlank_toUpper
  rw [trim, trim, List.dropWhile_map, ← List.map_reverse, List.dropWhile_map, ← List.map_reverse,
    same]

-- Trimming again changes nothing.
theorem trim_trim (chars : List Char) : trim (trim chars) = trim chars := by
  have front : (trim chars).dropWhile isBlank = trim chars := by
    obtain ⟨back, split⟩ := List.rdropWhile_prefix isBlank (chars.dropWhile isBlank)
    rw [← trim_rdropWhile] at split
    cases kept : trim chars with
    | nil => rfl
    | cons c rest =>
      have first := List.dropWhile_eq_self_iff.mp (List.dropWhile_idempotent isBlank chars)
      rw [kept] at split
      simp only [← split, List.cons_append, List.length_cons, Nat.zero_lt_succ, forall_const,
        List.getElem_cons_zero] at first
      exact List.dropWhile_cons_of_neg first
  rw [trim_rdropWhile, front, trim_rdropWhile, List.rdropWhile_idempotent]

theorem mem_of_trim (member : c ∈ trim chars) : c ∈ chars :=
  (List.dropWhile_sublist isBlank).subset ((List.rdropWhile_prefix isBlank _).subset member)

end Text

namespace SqlMode
open Text (Between trim)
variable {value flag : String} {entry other : List Char} {flags : List String}

theorem eraseDups_snoc [BEq α] [LawfulBEq α] (items : List α) (item : α) :
    (items ++ [item]).eraseDups =
      items.eraseDups ++ if items.contains item then [] else [item] := by
  by_cases known : item ∈ items <;>
    simp [List.eraseDups_append, List.eraseDups_cons, List.removeAll, known]

theorem eraseDups_nodup [BEq α] [LawfulBEq α] (items : List α) : items.eraseDups.Nodup := by
  induction items using List.reverseRecOn with
  | nil => exact .nil
  | append_singleton items item ih =>
    rw [eraseDups_snoc]
    split
    · rwa [List.append_nil]
    · rename_i fresh
      rw [List.contains_iff_mem, ← List.mem_eraseDups] at fresh
      refine List.nodup_append.mpr ⟨ih, List.nodup_singleton item, ?_⟩
      rintro earlier listed _ last rfl
      exact fresh (List.mem_singleton.mp last ▸ listed)

theorem eraseDups_of_nodup [BEq α] [LawfulBEq α] {items : List α} (distinct : items.Nodup) :
    items.eraseDups = items := by
  induction items using List.reverseRecOn with
  | nil => rfl
  | append_singleton items item ih =>
    obtain ⟨earlier, _, apart⟩ := List.nodup_append.mp distinct
    have fresh : item ∉ items := fun known => apart item known item List.mem_cons_self rfl
    rw [eraseDups_snoc, ih earlier, if_neg (by rwa [List.contains_iff_mem])]

-- Equal up to the case of ASCII letters.
def Alike (entry other : List Char) : Prop := entry.map Char.toLower = other.map Char.toLower

theorem capitals_alike : capitals entry = capitals other ↔ Alike entry other := by
  have lower : ∀ chars : List Char, (chars.map Char.toUpper).map Char.toLower =
      chars.map Char.toLower := by
    intro chars
    rw [List.map_map]
    exact List.map_congr_left fun c _ => Text.toLower_toUpper c
  have upper : ∀ chars : List Char, (chars.map Char.toLower).map Char.toUpper =
      chars.map Char.toUpper := by
    intro chars
    rw [List.map_map]
    exact List.map_congr_left fun c _ => Text.toUpper_toLower c
  rw [capitals, capitals, String.ofList_inj, Alike]
  constructor
  · intro same
    rw [← lower entry, same, lower]
  · intro same
    rw [← upper entry, same, upper]

-- Digits, ASCII letters and the underscore.
def Plain (c : Char) : Prop :=
  ('0' ≤ c ∧ c ≤ '9') ∨ ('A' ≤ c ∧ c ≤ 'Z') ∨ ('a' ≤ c ∧ c ≤ 'z') ∨ c = '_'

theorem isFlagChar_iff (c : Char) : isFlagChar c = true ↔ Plain c := by
  have kinds : isFlagChar c =
      (((decide ('A' ≤ c ∧ c ≤ 'Z') || (decide ('a' ≤ c) && decide (c ≤ 'z'))) ||
        (decide ('0' ≤ c) && decide (c ≤ '9'))) || decide (c = '_')) := rfl
  simp only [kinds, Plain, Bool.or_eq_true, Bool.and_eq_true, decide_eq_true_eq]
  tauto

-- The comma-separated entries of a value, without the blanks around them.
theorem mem_entries : entry ∈ entries value ↔
    ∃ field, Between ',' value.toList field ∧ trim field = entry := by
  simp only [entries, List.mem_map, Text.mem_fields]

-- What a flag looks like once it is read.
structure Normal (flag : String) : Prop where
  filled : flag ≠ ""
  trimmed : trim flag.toList = flag.toList
  plain : ',' ∉ flag.toList
  capital : capitals flag.toList = flag

theorem normal_capitals (listed : entry ∈ entries value) (filled : entry ≠ []) :
    Normal (capitals entry) := by
  obtain ⟨field, between, rfl⟩ := mem_entries.mp listed
  have letters : (capitals (trim field)).toList = (trim field).map Char.toUpper :=
    String.toList_ofList
  refine ⟨?_, ?_, ?_, ?_⟩
  · intro empty
    rw [empty] at letters
    exact filled (List.map_eq_nil_iff.mp letters.symm)
  · rw [letters, Text.trim_toUpper, Text.trim_trim]
  · rw [letters]
    intro member
    obtain ⟨c, inside, comma⟩ := List.mem_map.mp member
    rw [Text.comma_of_toUpper comma] at inside
    exact between.plain (Text.mem_of_trim inside)
  · rw [letters, capitals, List.map_map]
    exact congrArg String.ofList (List.map_congr_left fun c _ => Text.toUpper_toUpper c)

theorem capitals_eq_empty : capitals entry = "" ↔ entry = [] := by
  rw [capitals, String.ofList_eq_empty_iff, List.map_eq_nil_iff]

theorem mem_flags : flag ∈ (parse value).flags ↔
    ∃ entry ∈ entries value, entry ≠ [] ∧ capitals entry = flag := by
  simp only [parse, List.mem_eraseDups, List.mem_filter, List.mem_map, decide_eq_true_eq]
  constructor
  · rintro ⟨⟨entry, listed, rfl⟩, filled⟩
    exact ⟨entry, listed, fun empty => filled (capitals_eq_empty.mpr empty), rfl⟩
  · rintro ⟨entry, listed, filled, rfl⟩
    exact ⟨⟨entry, listed, rfl⟩, fun empty => filled (capitals_eq_empty.mp empty)⟩

theorem flags_normal (listed : flag ∈ (parse value).flags) : Normal flag := by
  obtain ⟨entry, member, filled, rfl⟩ := mem_flags.mp listed
  exact normal_capitals member filled

theorem flags_nodup (value : String) : (parse value).flags.Nodup := eraseDups_nodup _

-- Flags that are normal are read back from their text as they are.
theorem parse_normal (normal : ∀ flag ∈ flags, Normal flag) (distinct : flags.Nodup) :
    parse (toText ⟨flags⟩) = ⟨flags⟩ := by
  cases flags with
  | nil => decide +kernel
  | cons first rest =>
    have present : (first :: rest).map String.toList ≠ [] := by simp
    have plain : ∀ part ∈ (first :: rest).map String.toList, ',' ∉ part := by
      intro part member
      obtain ⟨flag, listed, rfl⟩ := List.mem_map.mp member
      exact (normal flag listed).plain
    have read : entries (toText ⟨first :: rest⟩) = (first :: rest).map String.toList := by
      rw [entries, toText, String.toList_intercalate]
      change (Text.fields ',' ([','].intercalate _)).map trim = _
      rw [Text.fields_join plain present, List.map_map]
      exact List.map_congr_left fun flag listed => (normal flag listed).trimmed
    have capital : (entries (toText ⟨first :: rest⟩)).map capitals = first :: rest := by
      rw [read, List.map_map]
      exact (List.map_congr_left fun flag listed => (normal flag listed).capital).trans
        (List.map_id _)
    have filled : (first :: rest).filter (· ≠ "") = first :: rest := by
      apply List.filter_eq_self.mpr
      intro flag listed
      exact decide_eq_true (normal flag listed).filled
    rw [parse, capital, filled, eraseDups_of_nodup distinct]

theorem parse_toText (value : String) : parse (parse value).toText = parse value :=
  parse_normal (fun _ => flags_normal) (flags_nodup value)

theorem contains_iff : (parse value).contains flag = true ↔
    ∃ field, Between ',' value.toList field ∧ trim field ≠ [] ∧ Alike (trim field) flag.toList := by
  simp only [contains, List.any_eq_true, beq_iff_eq, mem_flags, mem_entries]
  constructor
  · rintro ⟨_, ⟨_, ⟨field, between, rfl⟩, filled, rfl⟩, same⟩
    have capital : capitals (capitals (trim field)).toList = capitals (trim field) :=
      (normal_capitals (mem_entries.mpr ⟨field, between, rfl⟩) filled).capital
    exact ⟨field, between, filled, capitals_alike.mp (capital.symm.trans same)⟩
  · rintro ⟨field, between, filled, alike⟩
    have capital : capitals (capitals (trim field)).toList = capitals (trim field) :=
      (normal_capitals (mem_entries.mpr ⟨field, between, rfl⟩) filled).capital
    exact ⟨_, ⟨_, ⟨field, between, rfl⟩, filled, rfl⟩, capital.trans (capitals_alike.mpr alike)⟩

theorem parseStrict_ok (value : String) :
    (∃ mode, parseStrict value = .ok mode) ↔
      ∀ field, Between ',' value.toList field → ∀ c ∈ trim field, Plain c := by
  have valid : invalidEntry? value = none ↔ ∀ entry ∈ entries value, ∀ c ∈ entry, Plain c := by
    simp [ invalidEntry?, isFlagChar_iff]
  have fields : (∀ entry ∈ entries value, ∀ c ∈ entry, Plain c) ↔
      ∀ field, Between ',' value.toList field → ∀ c ∈ trim field, Plain c := by
    simp only [mem_entries, forall_exists_index, and_imp, forall_apply_eq_imp_iff₂]
  rw [← fields, ← valid, parseStrict]
  cases invalidEntry? value <;> simp

theorem parseStrict_agrees {mode : SqlMode} (accepted : parseStrict value = .ok mode) :
    mode = parse value := by
  rw [parseStrict] at accepted
  cases bad : invalidEntry? value with
  | some entry =>
    rw [bad] at accepted
    cases accepted
  | none =>
    rw [bad] at accepted
    exact (Except.ok.inj accepted).symm

-- Settings that hold the text of the flags escape like settings that hold the value itself.
theorem effective_toText (settings : Settings) (value : String) :
    { settings with sqlMode := some (parse value).toText }.effectiveRawBackslash =
      { settings with sqlMode := some value }.effectiveRawBackslash := by
  simp only [Settings.effectiveRawBackslash, Option.any_some, parse_toText]

-- A configuration file leaves the text of the flags in the settings.
theorem assign_sqlMode {settings loaded : Settings}
    (assigned : settings.assign [("sql_mode", .string value)] = .ok loaded) :
    loaded = { settings with sqlMode := some (parse value).toText } := by
  have entry : Assignment.ofEntry "sql_mode" (.string value) =
      ((parseStrict value).mapError .invalidFlag).map .sqlMode := rfl
  rw [Settings.assign, entry] at assigned
  cases read : parseStrict value with
  | error bad =>
    rw [read] at assigned
    cases assigned
  | ok mode =>
    obtain rfl := parseStrict_agrees read
    rw [read] at assigned
    exact (Except.ok.inj assigned).symm

-- What reading a value keeps of it, however the value is stored.
structure Faithful (value : String) : Prop where
  again : parse (parse value).toText = parse value
  same : ∀ flag, (parse (parse value).toText).contains flag = (parse value).contains flag
  escaping : ∀ settings : Settings,
    { settings with sqlMode := some (parse value).toText }.effectiveRawBackslash =
      { settings with sqlMode := some value }.effectiveRawBackslash
  stored : ∀ settings loaded : Settings,
    settings.assign [("sql_mode", .string value)] = .ok loaded →
      loaded = { settings with sqlMode := some (parse value).toText }
  flags : ∀ flag ∈ (parse value).flags, flag ≠ "" ∧ trim flag.toList = flag.toList
  apart : (parse value).flags.Pairwise fun flag other => ¬Alike flag.toList other.toList
  contains : ∀ flag, (parse value).contains flag = true ↔
    ∃ field, Between ',' value.toList field ∧ trim field ≠ [] ∧ Alike (trim field) flag.toList
  strict : (∃ mode, parseStrict value = .ok mode) ↔
    ∀ field, Between ',' value.toList field → ∀ c ∈ trim field, Plain c
  agrees : ∀ mode, parseStrict value = .ok mode → mode = parse value

theorem flags_apart (value : String) :
    (parse value).flags.Pairwise fun flag other => ¬Alike flag.toList other.toList := by
  refine (flags_nodup value).imp_of_mem ?_
  intro flag other listed also differ alike
  apply differ
  rw [← (flags_normal listed).capital, ← (flags_normal also).capital]
  exact capitals_alike.mpr alike

-- The text of the flags stands for the value it was read from, whatever characters that has.
theorem parse_faithful (value : String) : Faithful value where
  again := parse_toText value
  same flag := by rw [parse_toText]
  escaping settings := effective_toText settings value
  stored _ _ := assign_sqlMode
  flags _ listed := ⟨(flags_normal listed).filled, (flags_normal listed).trimmed⟩
  apart := flags_apart value
  contains _ := contains_iff
  strict := parseStrict_ok value
  agrees _ := parseStrict_agrees

end SqlMode
end InsertBatch
