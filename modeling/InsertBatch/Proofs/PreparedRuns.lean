import InsertBatch.Prepared
import InsertBatch.Proofs.BatchPlans
import Mathlib.Data.List.Basic
import Mathlib.Data.List.Induction

namespace InsertBatch.Prepared

-- What a caller asks of a prepared statement.
inductive Call where
  | setParameter (index : Nat) (value : Bytes)
  | clearParameters
  | addBatch
  | clearBatch
  | toSql
  | plan (options : BatchOptions)
deriving DecidableEq, Repr

inductive Answer where
  | done
  | text (sql : Bytes)
  | plan (plan : BatchPlan)
deriving DecidableEq, Repr

variable {prepared : Prepared} {template : Analysis} {calls : List Call} {row : Row}

def perform (prepared : Prepared) : Call → Except BindError (Answer × Prepared)
  | .setParameter index value => (prepared.setParameter index value).map (.done, ·)
  | .clearParameters => .ok (.done, prepared.clearParameters)
  | .addBatch => prepared.addBatch.map (.done, ·)
  | .clearBatch => .ok (.done, prepared.clearBatch)
  | .toSql => prepared.toSql.map (.text ·, prepared)
  | .plan options => (prepared.plan options).map (.plan ·, prepared)

-- A refused call leaves the statement as it was.
def step (prepared : Prepared) (call : Call) : Prepared :=
  match prepared.perform call with
  | .ok (_, next) => next
  | .error _ => prepared

-- A new statement after these calls, the latest last.
def after (template : Analysis) (calls : List Call) : Prepared :=
  calls.foldl step (ofAnalysis template)

theorem after_snoc (template : Analysis) (calls : List Call) (call : Call) :
    after template (calls ++ [call]) = step (after template calls) call :=
  List.foldl_concat _ _ _ _

-- What the statement must hold is told from here on by the calls alone.

def Call.valueFor? (index : Nat) : Call → Option Bytes
  | .setParameter position value => if position = index then some value else none
  | _ => none

-- The value bound to a parameter: going back to the last clearing, the first that a call
-- gave it. A parameter that exists takes every value, so all these calls were accepted.
def bound (calls : List Call) (index : Nat) : Option Bytes :=
  (calls.reverse.takeWhile (· != .clearParameters)).findSome? (Call.valueFor? index)

-- The values of all parameters, if each has one.
def snapshot (count : Nat) (calls : List Call) : Option Row :=
  (List.range count).mapM fun position => bound calls (position + 1)

-- Where rows were to be added since the batch was last cleared.
def additions (calls : List Call) : List Nat :=
  (List.range calls.length).filter fun place =>
    calls[place]? == some .addBatch && !(calls.drop (place + 1)).contains .clearBatch

-- Each row is what was bound at its own time. An addition without a row was refused.
def queued (count : Nat) (calls : List Call) : List Row :=
  (additions calls).filterMap fun place => snapshot count (calls.take place)

theorem bound_snoc (calls : List Call) (call : Call) (index : Nat) :
    bound (calls ++ [call]) index =
      if call = .clearParameters then none
      else (Call.valueFor? index call).or (bound calls index) := by
  unfold bound
  rw [List.reverse_append, List.reverse_singleton, List.singleton_append]
  by_cases cleared : call = .clearParameters
  · rw [if_pos cleared, List.takeWhile_cons_of_neg (by simp [cleared])]
    rfl
  · rw [if_neg cleared, List.takeWhile_cons_of_pos (by simp [cleared]), List.findSome?_cons]
    cases Call.valueFor? index call with
    | none => rfl
    | some value => rfl

theorem additions_snoc (calls : List Call) (call : Call) :
    additions (calls ++ [call]) =
      (if call = .clearBatch then [] else additions calls) ++
        (if call = .addBatch then [calls.length] else []) := by
  have last : (calls ++ [call])[calls.length]? = some call := List.getElem?_concat_length
  have behind : (calls ++ [call]).drop (calls.length + 1) = [] :=
    List.drop_of_length_le (Nat.le_of_eq List.length_append)
  unfold additions
  rw [List.length_append, List.length_singleton, List.range_succ, List.filter_append]
  congr 1
  · by_cases cleared : call = .clearBatch
    · rw [if_pos cleared, List.filter_eq_nil_iff]
      intro place member
      have inside := List.mem_range.mp member
      simp [List.drop_append_of_le_length inside, cleared]
    · rw [if_neg cleared]
      apply List.filter_congr
      intro place member
      have inside := List.mem_range.mp member
      rw [List.getElem?_append_left inside, List.drop_append_of_le_length inside]
      simp [Ne.symm cleared]
  · rw [List.filter_singleton, last, behind]
    by_cases added : call = .addBatch
    · rw [if_pos added, added]
      rfl
    · have other : (some call == some .addBatch) = false := by simp [added]
      rw [if_neg added, other]
      rfl

theorem queued_snoc (count : Nat) (calls : List Call) (call : Call) :
    queued count (calls ++ [call]) =
      (if call = .clearBatch then [] else queued count calls) ++
        (if call = .addBatch then (snapshot count calls).toList else []) := by
  have earlier : ∀ place ∈ additions calls,
      snapshot count ((calls ++ [call]).take place) = snapshot count (calls.take place) := by
    intro place member
    have inside := List.mem_range.mp (List.mem_filter.mp member).1
    rw [List.take_append_of_le_length (Nat.le_of_lt inside)]
  unfold queued
  rw [additions_snoc, List.filterMap_append]
  congr 1
  · by_cases cleared : call = .clearBatch
    · rw [if_pos cleared, if_pos cleared, List.filterMap_nil]
    · rw [if_neg cleared, if_neg cleared, List.filterMap_congr earlier]
  · by_cases added : call = .addBatch
    · rw [if_pos added, if_pos added, List.filterMap_cons, List.take_left]
      cases snapshot count calls with
      | none => rfl
      | some row => rfl
    · rw [if_neg added, if_neg added, List.filterMap_nil]

-- A row holds what is bound, or the first parameter without a value is named.

theorem mapM_eq_some {find : α → Option β} {items : List α} {found : List β} :
    items.mapM find = some found ↔ items.map find = found.map some := by
  induction items generalizing found with
  | nil => cases found <;> simp
  | cons item items ih =>
    rw [List.mapM_cons, List.map_cons]
    cases found with
    | nil => cases find item <;> cases items.mapM find <;> simp
    | cons first found =>
      rw [List.map_cons, List.cons.injEq, ← ih]
      cases find item <;> cases items.mapM find <;> simp

theorem boundRow_eq_ok : prepared.boundRow = .ok row ↔ prepared.bindings = row.map some := by
  unfold boundRow
  cases free : prepared.bindings.findIdx? Option.isNone with
  | some position =>
    refine iff_of_false nofun fun full => ?_
    obtain ⟨inside, missing, _⟩ := List.findIdx?_eq_some_iff_getElem.mp free
    simp [full] at missing
  | none =>
    rw [Except.ok.injEq]
    constructor
    · intro filled
      have each : ∀ binding ∈ prepared.bindings, (id binding).map some = some binding := by
        intro binding member
        have present := List.findIdx?_eq_none_iff.mp free binding member
        cases binding with
        | none => cases present
        | some value => rfl
      rw [← filled, List.map_filterMap, List.filterMap_congr each, List.filterMap_some]
    · intro full
      rw [full, List.filterMap_map]
      exact List.filterMap_some

theorem findIdx?_isNone {bindings : List (Option Bytes)} {position : Nat} :
    bindings.findIdx? Option.isNone = some position ↔ bindings[position]? = some none ∧
      ∀ earlier < position, bindings[earlier]? ≠ some none := by
  rw [List.findIdx?_eq_some_iff_getElem]
  constructor
  · intro found
    obtain ⟨inside, missing, before⟩ := found
    refine ⟨?_, ?_⟩
    · rw [List.getElem?_eq_getElem inside, Option.isNone_iff_eq_none.mp missing]
    · intro earlier less same
      obtain ⟨_, value⟩ := List.getElem?_eq_some_iff.mp same
      exact before earlier less (by rw [value]; rfl)
  · intro found
    obtain ⟨missing, before⟩ := found
    obtain ⟨inside, value⟩ := List.getElem?_eq_some_iff.mp missing
    refine ⟨inside, by rw [value]; rfl, ?_⟩
    intro earlier less free
    apply before earlier less
    rw [List.getElem?_eq_getElem (Nat.lt_trans less inside), Option.isNone_iff_eq_none.mp free]

theorem boundRow_eq_error {error : BindError} : prepared.boundRow = .error error ↔
    ∃ position, prepared.bindings[position]? = some none ∧
      (∀ earlier < position, prepared.bindings[earlier]? ≠ some none) ∧
      error = .unbound (position + 1) := by
  simp only [← and_assoc, ← findIdx?_isNone]
  unfold boundRow
  cases prepared.bindings.findIdx? Option.isNone with
  | none => simp
  | some position =>
    constructor
    · intro refused
      cases refused
      exact ⟨position, rfl, rfl⟩
    · intro found
      obtain ⟨other, same, rfl⟩ := found
      cases same
      rfl

-- What the calls alone tell of the statement.
def told (template : Analysis) (calls : List Call) : Prepared :=
  { template
    bindings := (List.range template.statement.parameterCount).map fun position =>
      bound calls (position + 1)
    batch := queued template.statement.parameterCount calls }

theorem told_parameterCount (template : Analysis) (calls : List Call) :
    (told template calls).parameterCount = template.statement.parameterCount := by
  rw [parameterCount, told, List.length_map, List.length_range]

theorem told_boundRow : (told template calls).boundRow = .ok row ↔
    snapshot template.statement.parameterCount calls = some row := by
  rw [boundRow_eq_ok, snapshot, mapM_eq_some]
  rfl

theorem told_setParameter (template : Analysis) (calls : List Call) (index : Nat)
    (value : Bytes) :
    (told template calls).setParameter index value =
      if 1 ≤ index ∧ index ≤ template.statement.parameterCount then
        .ok (told template (calls ++ [.setParameter index value]))
      else .error (.noSuchParameter index template.statement.parameterCount) := by
  unfold setParameter
  rw [told_parameterCount]
  apply ite_congr rfl _ fun _ => rfl
  intro inside
  have bindings : (told template calls).bindings.set (index - 1) (some value) =
      (told template (calls ++ [.setParameter index value])).bindings := by
    apply List.ext_getElem (by simp [told])
    intro position _ _
    rw [List.getElem_set]
    simp only [told, List.getElem_map, List.getElem_range, bound_snoc, Call.valueFor?]
    by_cases same : index = position + 1
    · simp [same]
    · rw [if_neg (by omega)]
      simp [same]
  rw [bindings]
  simp [told, queued_snoc]

theorem told_unbinding (template : Analysis) (calls : List Call) (call : Call)
    (kept : call ≠ .clearParameters)
    (free : ∀ position < template.statement.parameterCount,
      Call.valueFor? (position + 1) call = none) :
    told template (calls ++ [call]) =
      { told template calls with
        batch := queued template.statement.parameterCount (calls ++ [call]) } := by
  have same : ∀ position ∈ List.range template.statement.parameterCount,
      bound (calls ++ [call]) (position + 1) = bound calls (position + 1) := by
    intro position member
    rw [bound_snoc, if_neg kept, free position (List.mem_range.mp member)]
    rfl
  unfold told
  rw [List.map_congr_left same]

-- One call changes the statement as the history tells, whether it is accepted or not.
theorem step_told (template : Analysis) (calls : List Call) (call : Call) :
    step (told template calls) call = told template (calls ++ [call]) := by
  cases call with
  | setParameter index value =>
    rw [step, perform, told_setParameter]
    by_cases inside : 1 ≤ index ∧ index ≤ template.statement.parameterCount
    · rw [if_pos inside]
      rfl
    · have free : ∀ position < template.statement.parameterCount,
          Call.valueFor? (position + 1) (.setParameter index value) = none := by
        intro position less
        exact if_neg (by omega)
      rw [if_neg inside, told_unbinding template calls (.setParameter index value) nofun free,
        queued_snoc]
      simp [told, Except.map]
  | clearParameters =>
    have cleared : ∀ position, bound (calls ++ [.clearParameters]) (position + 1) = none := by
      intro position
      rw [bound_snoc, if_pos rfl]
    simp [step, perform, clearParameters, told, cleared, queued_snoc, Function.comp_def]
  | addBatch =>
    rw [step, perform, addBatch, told_unbinding template calls .addBatch nofun fun _ _ => rfl,
      queued_snoc]
    cases taken : snapshot template.statement.parameterCount calls with
    | some row =>
      rw [told_boundRow.mpr taken]
      simp [told, Except.map]
    | none =>
      cases refused : (told template calls).boundRow with
      | ok row =>
        rw [told_boundRow, taken] at refused
        cases refused
      | error error => simp [told, Except.map]
  | clearBatch =>
    rw [told_unbinding template calls .clearBatch nofun fun _ _ => rfl, queued_snoc]
    rfl
  | toSql =>
    rw [step, perform, told_unbinding template calls .toSql nofun fun _ _ => rfl, queued_snoc]
    cases (told template calls).toSql with
    | ok sql => simp [told, Except.map]
    | error error => simp [told, Except.map]
  | plan options =>
    rw [step, perform, told_unbinding template calls (.plan options) nofun fun _ _ => rfl,
      queued_snoc]
    cases (told template calls).plan options with
    | ok plan => simp [told, Except.map]
    | error error => simp [told, Except.map]

-- The run lemma: after any calls the statement is what they tell.
theorem after_told (template : Analysis) (calls : List Call) :
    after template calls = told template calls := by
  induction calls using List.reverseRecOn with
  | nil =>
    simp [after, told, ofAnalysis, queued, additions, bound, Function.const_def]
  | append_singleton calls call ih => rw [after_snoc, ih, step_told]

-- Every row has the size of the statement, so that no later step can refuse it.

theorem snapshot_length {count : Nat} (taken : snapshot count calls = some row) :
    row.length = count := by
  have lengths := congrArg List.length (mapM_eq_some.mp taken)
  rw [List.length_map, List.length_map, List.length_range] at lengths
  exact lengths.symm

theorem queued_length {count : Nat} (member : row ∈ queued count calls) : row.length = count := by
  obtain ⟨place, _, taken⟩ := List.mem_filterMap.mp member
  exact snapshot_length taken

theorem queued_extends (count : Nat) (calls later : List Call) (kept : .clearBatch ∉ later) :
    queued count calls <+: queued count (calls ++ later) := by
  induction later using List.reverseRecOn with
  | nil => exact (List.append_nil calls).symm ▸ List.prefix_rfl
  | append_singleton later call ih =>
    rw [List.mem_append, List.mem_singleton, not_or] at kept
    rw [← List.append_assoc, queued_snoc, if_neg (Ne.symm kept.2)]
    exact (ih kept.1).trans (List.prefix_append _ _)

-- The first parameter that has no value.
structure FirstUnbound (count : Nat) (calls : List Call) (index : Nat) : Prop where
  positive : 1 ≤ index
  inside : index ≤ count
  free : bound calls index = none
  before : ∀ smaller, 1 ≤ smaller → smaller < index → bound calls smaller ≠ none

theorem told_unbound (template : Analysis) (calls : List Call) (position : Nat) :
    (told template calls).bindings[position]? = some none ↔
      position < template.statement.parameterCount ∧ bound calls (position + 1) = none := by
  rw [told, List.getElem?_map, Option.map_eq_some_iff]
  constructor
  · intro found
    obtain ⟨same, read, free⟩ := found
    obtain ⟨inside, rfl⟩ := List.getElem?_eq_some_iff.mp read
    rw [List.length_range] at inside
    rw [List.getElem_range] at free
    exact ⟨inside, free⟩
  · intro found
    exact ⟨position, List.getElem?_range found.1, found.2⟩

theorem told_boundRow_error {error : BindError} :
    (told template calls).boundRow = .error error ↔ ∃ index,
      FirstUnbound template.statement.parameterCount calls index ∧ error = .unbound index := by
  simp only [boundRow_eq_error, told_unbound, ne_eq]
  constructor
  · intro found
    obtain ⟨position, ⟨inside, free⟩, before, named⟩ := found
    refine ⟨position + 1, ⟨by omega, inside, free, ?_⟩, named⟩
    intro smaller positive less missing
    obtain ⟨earlier, rfl⟩ := Nat.exists_eq_add_of_le' positive
    exact before earlier (by omega) ⟨by omega, missing⟩
  · intro found
    obtain ⟨index, ⟨positive, inside, free, before⟩, named⟩ := found
    obtain ⟨position, rfl⟩ := Nat.exists_eq_add_of_le' positive
    refine ⟨position, ⟨inside, free⟩, ?_, named⟩
    intro earlier less missing
    exact before (earlier + 1) (by omega) (by omega) missing.2

theorem told_toSql (template : Analysis) (calls : List Call) :
    (told template calls).toSql =
      (told template calls).boundRow.map (Segment.fill template.statement.segments) := by
  unfold toSql
  cases taken : (told template calls).boundRow with
  | error error => rfl
  | ok row => exact Statement.render_ok (snapshot_length (told_boundRow.mp taken))

-- How a prepared statement stands after these calls and what it refuses then.
structure Follows (template : Analysis) (calls : List Call) : Prop where
  state : after template calls = told template calls
  binding : ∀ index value error, (after template calls).setParameter index value = .error error ↔
    (index = 0 ∨ template.statement.parameterCount < index) ∧
      error = .noSuchParameter index template.statement.parameterCount
  addition : ∀ error, (after template calls).addBatch = .error error ↔
    ∃ index, FirstUnbound template.statement.parameterCount calls index ∧ error = .unbound index
  execution : ∀ error, (after template calls).toSql = .error error ↔
    ∃ index, FirstUnbound template.statement.parameterCount calls index ∧ error = .unbound index
  text : ∀ row, snapshot template.statement.parameterCount calls = some row →
    (after template calls).toSql = .ok (Segment.fill template.statement.segments row)
  unchanged : ∀ call error, (after template calls).perform call = .error error →
    after template (calls ++ [call]) = after template calls
  rowsStay : ∀ later, .clearBatch ∉ later →
    (after template calls).batch <+: (after template (calls ++ later)).batch
  rowsFit : ∀ row ∈ (after template calls).batch,
    row.length = template.statement.parameterCount ∧
      ∀ merging, template.statement.template? = some merging →
        row.length = merging.parameterCount
  planned : ∀ options, ∃ plan, (after template calls).plan options = .ok plan

-- Whatever is called in whatever order, a prepared statement holds what the calls bound and
-- queued, refuses only what has no place or no value, and can always be planned.
theorem runs_follow (serial : Nat) (rawBackslash : Bool) (sql : Bytes) (calls : List Call) :
    Follows ⟨serial, Statement.analyze rawBackslash sql⟩ calls where
  state := after_told _ calls
  binding := by
    intro index value error
    rw [after_told, told_setParameter]
    split
    · rename_i inside
      exact iff_of_false nofun (by omega)
    · rename_i outside
      rw [Except.error.injEq, eq_comm]
      exact (and_iff_right (by omega)).symm
  addition := by
    intro error
    rw [after_told, ← told_boundRow_error, addBatch]
    cases (told _ calls).boundRow <;> simp [Except.map]
  execution := by
    intro error
    rw [after_told, ← told_boundRow_error, told_toSql]
    cases (told _ calls).boundRow <;> simp [Except.map]
  text := by
    intro row taken
    rw [after_told, told_toSql, told_boundRow.mpr taken]
    rfl
  unchanged := by
    intro call error refused
    rw [after_snoc, step, refused]
  rowsStay := by
    intro later kept
    rw [after_told, after_told]
    exact queued_extends _ calls later kept
  rowsFit := by
    intro row member
    rw [after_told] at member
    have fits := queued_length member
    refine ⟨fits, ?_⟩
    intro merging found
    rw [fits, Statement.template_parameterCount found]
  planned := by
    intro options
    rw [after_told]
    exact (BatchPlan.ofRows_isOk _ _ _).mpr fun row member => queued_length member

end InsertBatch.Prepared
