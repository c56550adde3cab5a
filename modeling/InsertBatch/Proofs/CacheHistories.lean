import InsertBatch.Proofs.Entries
import InsertBatch.Report
import Mathlib.Data.Finset.Card
import Mathlib.Data.List.Induction

namespace InsertBatch.Cache
open Entries (lookup_absent lookup_isSome lookup_present mem_of_lookup)
variable {cache : Cache} {key other : CacheKey} {keys : List CacheKey}

-- What a connection asks of its cache.
inductive Call where
  | get (key : CacheKey)
  | clear
deriving DecidableEq, Repr

def step (cache : Cache) : Call → Cache
  | .get key => (cache.get key.rawBackslash key.sql).2
  | .clear => cache.clear

-- A new cache after these calls, the latest last.
def after (capacity : Nat) (calls : List Call) : Cache := calls.foldl step (ofCapacity capacity)

-- What the cache gives for the key.
def answer (cache : Cache) (key : CacheKey) : Analysis := (cache.get key.rawBackslash key.sql).1

theorem after_snoc (capacity : Nat) (calls : List Call) (call : Call) :
    after capacity (calls ++ [call]) = step (after capacity calls) call :=
  List.foldl_concat _ _ _ _

-- A request takes what is stored under its key, or stores a new analysis.
theorem get_parts (cache : Cache) (key : CacheKey) :
    (∃ found, cache.entries.lookup key = some found ∧ cache.answer key = found ∧
      cache.step (.get key) = cache.touch key found) ∨
    (cache.entries.lookup key = none ∧
      cache.answer key = ⟨cache.analyzed, Statement.analyze key.rawBackslash key.sql⟩ ∧
      cache.step (.get key) = cache.insert key (cache.answer key)) := by
  simp only [answer, step, get]
  cases cache.entries.lookup key with
  | none => exact .inr ⟨rfl, rfl, rfl⟩
  | some found => exact .inl ⟨found, rfl, rfl, rfl⟩

-- The counters tell how a request was served.
def Hit (cache : Cache) (key : CacheKey) : Prop :=
  (cache.step (.get key)).hits = cache.hits + 1 ∧ (cache.step (.get key)).misses = cache.misses

def Miss (cache : Cache) (key : CacheKey) : Prop :=
  (cache.step (.get key)).hits = cache.hits ∧ (cache.step (.get key)).misses = cache.misses + 1

theorem hit_or_miss (cache : Cache) (key : CacheKey) :
    (key ∈ cache.entries.map Prod.fst ∧ Hit cache key ∧ ¬Miss cache key) ∨
      (key ∉ cache.entries.map Prod.fst ∧ Miss cache key ∧ ¬Hit cache key) := by
  rw [← lookup_isSome]
  unfold Hit Miss
  cases get_parts cache key with
  | inl stored =>
    obtain ⟨found, stored, _, next⟩ := stored
    simp [stored, next, touch]
  | inr missing =>
    obtain ⟨missing, _, next⟩ := missing
    simp [missing, next, insert]

theorem hit_iff (cache : Cache) (key : CacheKey) :
    Hit cache key ↔ key ∈ cache.entries.map Prod.fst := by
  cases hit_or_miss cache key with
  | inl hit => exact iff_of_true hit.2.1 hit.1
  | inr miss => exact iff_of_false miss.2.2 miss.1

theorem miss_iff (cache : Cache) (key : CacheKey) : Miss cache key ↔ ¬Hit cache key := by
  cases hit_or_miss cache key with
  | inl hit => exact iff_of_false hit.2.2 (not_not_intro hit.2.1)
  | inr miss => exact iff_of_true miss.2.1 miss.2.2

-- Every stored analysis is the one of its own key.
def Sound (cache : Cache) : Prop :=
  ∀ entry ∈ cache.entries,
    entry.2.statement = Statement.analyze entry.1.rawBackslash entry.1.sql

theorem ofCapacity_sound (capacity : Nat) : Sound (ofCapacity capacity) := by
  intro entry member
  cases member

theorem answer_sound (sound : Sound cache) (key : CacheKey) :
    (cache.answer key).statement = Statement.analyze key.rawBackslash key.sql := by
  cases get_parts cache key with
  | inl stored =>
    obtain ⟨found, stored, same, _⟩ := stored
    rw [same]
    exact sound _ (mem_of_lookup stored)
  | inr missing =>
    rw [missing.2.1]

-- What is stored after a request: the answer, and entries of other keys.
theorem mem_step {entry : CacheKey × Analysis}
    (member : entry ∈ (cache.step (.get key)).entries) :
    entry = (key, cache.answer key) ∨ entry.1 ≠ key ∧ entry ∈ cache.entries := by
  cases get_parts cache key with
  | inl stored =>
    obtain ⟨found, _, same, next⟩ := stored
    rw [next] at member
    cases List.mem_cons.mp member with
    | inl first => exact .inl (by rw [first, same])
    | inr later =>
      obtain ⟨old, apart⟩ := List.mem_filter.mp later
      exact .inr ⟨bne_iff_ne.mp apart, old⟩
  | inr missing =>
    obtain ⟨missing, _, next⟩ := missing
    rw [next] at member
    cases List.mem_cons.mp (List.mem_of_mem_take member) with
    | inl first => exact .inl first
    | inr old =>
      have apart := List.lookup_eq_none_iff.mp missing entry old
      exact .inr ⟨(bne_iff_ne.mp apart).symm, old⟩

theorem step_sound (sound : Sound cache) (call : Call) : Sound (cache.step call) := by
  intro entry member
  cases call with
  | clear => cases member
  | get key =>
    cases mem_step member with
    | inl first =>
      rw [first]
      exact answer_sound sound key
    | inr old => exact sound entry old.2

theorem after_sound (capacity : Nat) (calls : List Call) : Sound (after capacity calls) := by
  induction calls using List.reverseRecOn with
  | nil => exact ofCapacity_sound capacity
  | append_singleton calls call ih =>
    rw [after_snoc]
    exact step_sound ih call

theorem step_capacity (cache : Cache) (call : Call) :
    (cache.step call).capacity = cache.capacity := by
  cases call with
  | clear => rfl
  | get key =>
    cases get_parts cache key with
    | inl stored =>
      obtain ⟨_, _, _, next⟩ := stored
      rw [next]
      rfl
    | inr missing =>
      rw [missing.2.2]
      rfl

theorem after_capacity (capacity : Nat) (calls : List Call) :
    (after capacity calls).capacity = capacity := by
  induction calls using List.reverseRecOn with
  | nil => rfl
  | append_singleton calls call ih => rw [after_snoc, step_capacity, ih]

-- The keys requested since the last clearing, the most recently requested first.
def note (keys : List CacheKey) : Call → List CacheKey
  | .get key => key :: keys.filter (· != key)
  | .clear => []

def recency (calls : List Call) : List CacheKey := calls.foldl note []

theorem recency_snoc (calls : List Call) (call : Call) :
    recency (calls ++ [call]) = note (recency calls) call := List.foldl_concat _ _ _ _

theorem recency_nodup (calls : List Call) : (recency calls).Nodup := by
  induction calls using List.reverseRecOn with
  | nil => exact .nil
  | append_singleton calls call ih =>
    rw [recency_snoc]
    cases call with
    | clear => exact .nil
    | get key => exact List.nodup_cons.mpr ⟨by simp [List.mem_filter], ih.filter _⟩

theorem filter_absent (absent : key ∉ keys) : keys.filter (· != key) = keys := by
  apply List.filter_eq_self.mpr
  intro other member
  apply bne_iff_ne.mpr
  intro equal
  exact absent (equal ▸ member)

-- Without repetitions, what is taken from the front loses at most one key.
theorem take_filter (nodup : keys.Nodup) (count : Nat) :
    ((keys.take (count + 1)).filter (· != key)).take count =
      (keys.filter (· != key)).take count := by
  induction keys generalizing count with
  | nil => rfl
  | cons first keys ih =>
    obtain ⟨fresh, nodup⟩ := List.nodup_cons.mp nodup
    by_cases same : first = key
    · subst same
      have front : (keys.take count).filter (· != first) = keys.take count :=
        filter_absent fun member => fresh (List.mem_of_mem_take member)
      simp [filter_absent fresh, front]
    · cases count with
      | zero => rfl
      | succ count => simpa [same] using ih nodup count

-- A request moves its key to the front and keeps as many keys as there is room for.
theorem step_keys (fits : cache.size ≤ cache.capacity) (key : CacheKey) :
    (cache.step (.get key)).entries.map Prod.fst =
      (note (cache.entries.map Prod.fst) (.get key)).take cache.capacity := by
  cases get_parts cache key with
  | inl stored =>
    obtain ⟨found, stored, _, next⟩ := stored
    have present := lookup_present stored
    have shorter : ((cache.entries.map Prod.fst).filter (· != key)).length <
        (cache.entries.map Prod.fst).length :=
      List.length_filter_lt_length_iff_exists.mpr ⟨key, present, by simp⟩
    rw [List.length_map] at shorter
    have room : (note (cache.entries.map Prod.fst) (.get key)).length ≤ cache.capacity :=
      Nat.le_trans shorter fits
    rw [next, List.take_of_length_le room, note, List.filter_map]
    rfl
  | inr missing =>
    obtain ⟨missing, _, next⟩ := missing
    rw [next, note, filter_absent (lookup_absent missing)]
    exact List.map_take

-- The invariant of the store: it holds the most recently requested keys, in that order.
theorem stored_keys (capacity : Nat) (calls : List Call) :
    (after capacity calls).entries.map Prod.fst = (recency calls).take capacity := by
  induction calls using List.reverseRecOn with
  | nil => exact List.take_nil.symm
  | append_singleton calls call ih =>
    rw [after_snoc, recency_snoc]
    cases call with
    | clear => exact List.take_nil.symm
    | get key =>
      have fits : (after capacity calls).size ≤ (after capacity calls).capacity := by
        have count := congrArg List.length ih
        rw [List.length_map, List.length_take] at count
        rw [after_capacity, size, count]
        exact Nat.min_le_left _ _
      rw [step_keys fits, ih, after_capacity]
      cases capacity with
      | zero => rfl
      | succ count => exact congrArg (key :: ·) (take_filter (recency_nodup calls) count)

-- The latest request for the key stands between these calls, and the cache was not cleared since.
structure LatestRequest (calls : List Call) (key : CacheKey) (before since : List Call) : Prop where
  split : calls = before ++ .get key :: since
  kept : .clear ∉ since
  latest : .get key ∉ since

theorem LatestRequest.snoc {calls before since : List Call}
    (request : LatestRequest (calls ++ [.get other]) key before since) :
    (key = other ∧ before = calls ∧ since = []) ∨
      (key ≠ other ∧ ∃ earlier, since = earlier ++ [.get other] ∧
        LatestRequest calls key before earlier) := by
  obtain ⟨split, kept, latest⟩ := request
  cases List.eq_nil_or_concat since with
  | inl none =>
    subst none
    obtain ⟨rfl, same⟩ := List.append_inj' split rfl
    cases same
    exact .inl ⟨rfl, rfl, rfl⟩
  | inr some =>
    obtain ⟨earlier, call, rfl⟩ := some
    rw [List.concat_eq_append, ← List.cons_append, ← List.append_assoc] at split
    obtain ⟨rfl, same⟩ := List.append_inj' split rfl
    cases same
    simp only [List.concat_eq_append, List.mem_append, List.mem_singleton, not_or,
      Call.get.injEq] at kept latest
    exact .inr ⟨latest.2, earlier, List.concat_eq_append, rfl, kept.1, latest.1⟩

theorem LatestRequest.extend {calls before since : List Call}
    (request : LatestRequest calls key before since) (apart : key ≠ other) :
    LatestRequest (calls ++ [.get other]) key before (since ++ [.get other]) := by
  obtain ⟨rfl, kept, latest⟩ := request
  refine ⟨?_, ?_, ?_⟩
  · rw [List.append_assoc, List.cons_append]
  · simpa using kept
  · simpa [apart] using latest

def requested (calls : List Call) : List CacheKey :=
  calls.filterMap fun
    | .get key => some key
    | .clear => none

theorem mem_requested (calls : List Call) (key : CacheKey) :
    key ∈ requested calls ↔ .get key ∈ calls := by
  unfold requested
  rw [List.mem_filterMap]
  constructor
  · intro found
    obtain ⟨call, member, same⟩ := found
    cases call with
    | clear => cases same
    | get other =>
      cases same
      exact member
  · intro member
    exact ⟨_, member, rfl⟩

-- As long as nothing is cleared, a key is in the list once it has been requested.
theorem mem_recency {calls : List Call} (kept : .clear ∉ calls) (key : CacheKey) :
    key ∈ recency calls ↔ .get key ∈ calls := by
  induction calls using List.reverseRecOn with
  | nil => simp [recency]
  | append_singleton calls call ih =>
    simp only [List.mem_append, List.mem_singleton, not_or] at kept ⊢
    rw [recency_snoc]
    cases call with
    | clear => exact absurd rfl kept.2
    | get other =>
      by_cases same : key = other
      · simp [note, same]
      · simp [note, same, List.mem_filter, ih kept.1]

theorem recency_length {calls : List Call} (kept : .clear ∉ calls) :
    (recency calls).length = (requested calls).toFinset.card := by
  rw [← List.toFinset_card_of_nodup (recency_nodup calls)]
  apply congrArg Finset.card
  ext key
  rw [List.mem_toFinset, List.mem_toFinset, mem_recency kept, mem_requested]

-- Before a key stand the keys requested after it.
theorem LatestRequest.recency {calls before since : List Call}
    (request : LatestRequest calls key before since) :
    ∃ older, recency calls = recency since ++ key :: older := by
  induction calls using List.reverseRecOn generalizing since with
  | nil => simpa using request.split
  | append_singleton calls call ih =>
    cases call with
    | clear =>
      obtain ⟨split, kept, _⟩ := request
      have last := congrArg List.getLast? split
      rw [List.getLast?_concat, List.getLast?_append_cons] at last
      cases since with
      | nil => cases last
      | cons first since =>
        rw [List.getLast?_cons_cons] at last
        exact absurd (List.mem_of_getLast? last.symm) kept
    | get other =>
      cases request.snoc with
      | inl here =>
        obtain ⟨rfl, rfl, rfl⟩ := here
        exact ⟨_, recency_snoc _ _⟩
      | inr behind =>
        obtain ⟨apart, earlier, rfl, previous⟩ := behind
        obtain ⟨older, known⟩ := ih previous
        refine ⟨older.filter (· != other), ?_⟩
        rw [recency_snoc, recency_snoc, known]
        simp [note, apart]

theorem LatestRequest.of_recency {calls : List Call} (member : key ∈ Cache.recency calls) :
    ∃ before since, LatestRequest calls key before since := by
  induction calls using List.reverseRecOn with
  | nil => cases member
  | append_singleton calls call ih =>
    rw [recency_snoc] at member
    cases call with
    | clear => cases member
    | get other =>
      by_cases same : key = other
      · subst same
        exact ⟨calls, [], rfl, by simp, by simp⟩
      · cases List.mem_cons.mp member with
        | inl here => exact absurd here same
        | inr behind =>
          obtain ⟨before, since, request⟩ := ih (List.mem_filter.mp behind).1
          exact ⟨before, _, request.extend same⟩

-- A key is stored as long as there is room for it and the other keys requested since.
theorem stored_iff (capacity : Nat) (calls : List Call) (key : CacheKey) :
    key ∈ (after capacity calls).entries.map Prod.fst ↔
      ∃ before since, LatestRequest calls key before since ∧
        (requested since).toFinset.card < capacity := by
  have kept : ∀ before since, LatestRequest calls key before since →
      (key ∈ (recency calls).take capacity ↔ (requested since).toFinset.card < capacity) := by
    intro before since request
    obtain ⟨older, known⟩ := request.recency
    have absent : key ∉ recency since := by
      rw [mem_recency request.kept]
      exact request.latest
    rw [← recency_length request.kept, known, List.take_append, List.mem_append]
    constructor
    · intro stored
      apply Nat.lt_of_not_le
      intro full
      rw [Nat.sub_eq_zero_of_le full] at stored
      cases stored with
      | inl front => exact absent (List.mem_of_mem_take front)
      | inr back => cases back
    · intro room
      obtain ⟨left, count⟩ := Nat.exists_eq_add_of_lt room
      apply Or.inr
      rw [show capacity - (recency since).length = left + 1 by omega]
      exact List.mem_cons_self
  rw [stored_keys]
  constructor
  · intro stored
    obtain ⟨before, since, request⟩ := LatestRequest.of_recency (List.mem_of_mem_take stored)
    exact ⟨before, since, request, (kept before since request).mp stored⟩
  · intro requested
    obtain ⟨before, since, request, room⟩ := requested
    exact (kept before since request).mpr room

-- What is stored under a key is what its latest request was given.
theorem stored_answer {capacity : Nat} {calls before since : List Call}
    {entry : CacheKey × Analysis} (member : entry ∈ (after capacity calls).entries)
    (request : LatestRequest calls entry.1 before since) :
    entry.2 = (after capacity before).answer entry.1 := by
  induction calls using List.reverseRecOn generalizing since with
  | nil => cases member
  | append_singleton calls call ih =>
    rw [after_snoc] at member
    cases call with
    | clear => cases member
    | get other =>
      cases mem_step member with
      | inl first =>
        subst first
        cases request.snoc with
        | inl here =>
          obtain ⟨_, rfl, _⟩ := here
          rfl
        | inr behind => exact absurd rfl behind.1
      | inr old =>
        cases request.snoc with
        | inl here => exact absurd here.1 old.1
        | inr behind =>
          obtain ⟨_, earlier, rfl, previous⟩ := behind
          exact ih old.2 previous

-- Serial numbers count up, also when the cache is cleared.
theorem step_analyzed (cache : Cache) (call : Call) :
    cache.analyzed ≤ (cache.step call).analyzed := by
  cases call with
  | clear => exact Nat.le_refl _
  | get key =>
    cases get_parts cache key with
    | inl stored =>
      obtain ⟨_, _, _, next⟩ := stored
      rw [next]
      exact Nat.le_refl _
    | inr missing =>
      rw [missing.2.2]
      exact Nat.le_succ _

def Numbered (cache : Cache) : Prop :=
  ∀ entry ∈ cache.entries, entry.2.serial < cache.analyzed

theorem answer_numbered (numbered : Numbered cache) (key : CacheKey) :
    (cache.answer key).serial < (cache.step (.get key)).analyzed := by
  cases get_parts cache key with
  | inl stored =>
    obtain ⟨found, stored, same, _⟩ := stored
    rw [same]
    exact Nat.lt_of_lt_of_le (numbered _ (mem_of_lookup stored)) (step_analyzed cache _)
  | inr missing =>
    rw [missing.2.2, missing.2.1]
    exact Nat.lt_succ_self _

theorem after_numbered (capacity : Nat) (calls : List Call) :
    Numbered (after capacity calls) := by
  induction calls using List.reverseRecOn with
  | nil =>
    intro entry member
    cases member
  | append_singleton calls call ih =>
    rw [after_snoc]
    intro entry member
    cases call with
    | clear => cases member
    | get key =>
      cases mem_step member with
      | inl first =>
        rw [first]
        exact answer_numbered ih key
      | inr old => exact Nat.lt_of_lt_of_le (ih entry old.2) (step_analyzed _ _)

-- Every answer so far has a number below the count.
theorem given_numbered {capacity : Nat} {calls before since : List Call}
    (split : calls = before ++ .get other :: since) :
    ((after capacity before).answer other).serial < (after capacity calls).analyzed := by
  induction since using List.reverseRecOn generalizing calls with
  | nil =>
    rw [split, after_snoc]
    exact answer_numbered (after_numbered capacity before) other
  | append_singleton since call ih =>
    rw [split, ← List.cons_append, ← List.append_assoc, after_snoc]
    exact Nat.lt_of_lt_of_le (ih rfl) (step_analyzed _ _)

-- How a cache of this capacity serves a request for the key after these calls.
structure Serves (capacity : Nat) (calls : List Call) (key : CacheKey) : Prop where
  hit : Hit (after capacity calls) key ↔ ∃ before since, LatestRequest calls key before since ∧
    (requested since).toFinset.card < capacity
  miss : Miss (after capacity calls) key ↔ ¬Hit (after capacity calls) key
  shared : Hit (after capacity calls) key → ∀ before since, LatestRequest calls key before since →
    (after capacity calls).answer key = (after capacity before).answer key
  fresh : Miss (after capacity calls) key → ∀ before other since,
    calls = before ++ .get other :: since →
      ((after capacity calls).answer key).serial ≠ ((after capacity before).answer other).serial
  correct : ((after capacity calls).answer key).statement =
    Statement.analyze key.rawBackslash key.sql
  disabled : capacity = 0 → Miss (after capacity calls) key

-- Whatever was asked before, a key is found while fewer than `capacity` other keys were
-- requested after it, and is analyzed anew otherwise.
theorem serves_recent (capacity : Nat) (calls : List Call) (key : CacheKey) :
    Serves capacity calls key where
  hit := (hit_iff _ key).trans (stored_iff capacity calls key)
  miss := miss_iff _ key
  shared := by
    intro hit before since request
    cases get_parts (after capacity calls) key with
    | inl stored =>
      obtain ⟨found, stored, same, _⟩ := stored
      rw [same]
      exact stored_answer (mem_of_lookup stored) request
    | inr missing =>
      have present := (lookup_isSome _ key).mpr ((hit_iff _ key).mp hit)
      rw [missing.1] at present
      cases present
  fresh := by
    intro miss before other since split
    have absent := (miss_iff _ key).mp miss
    rw [hit_iff, ← lookup_isSome] at absent
    cases get_parts (after capacity calls) key with
    | inl stored =>
      obtain ⟨found, stored, _⟩ := stored
      exact absurd (by rw [stored]; rfl) absent
    | inr missing =>
      rw [missing.2.1]
      exact Nat.ne_of_gt (given_numbered split)
  correct := answer_sound (after_sound capacity calls) key
  disabled := by
    intro none
    rw [miss_iff, hit_iff, stored_iff]
    intro found
    obtain ⟨_, since, _, room⟩ := found
    rw [none] at room
    exact Nat.not_lt_zero _ room

end InsertBatch.Cache

namespace InsertBatch

-- What a finding tells, whichever findings share its analysis.
def Finding.told (finding : Finding) : Nat × Statement := (finding.line, finding.statement)

namespace Script
variable {cache : Cache} {library : LruLibrary} {settings : Settings}

-- A sound cache does not show in the findings.
theorem findings_told (rawBackslash : Bool) (sound : cache.Sound) (pieces : List Piece) :
    (findings rawBackslash cache pieces).map Finding.told =
      pieces.map fun piece => (piece.line, Statement.analyze rawBackslash piece.text) := by
  induction pieces generalizing cache with
  | nil => rfl
  | cons piece pieces ih =>
    have correct := Cache.answer_sound sound ⟨piece.text, rawBackslash⟩
    have next := Cache.step_sound sound (.get ⟨piece.text, rawBackslash⟩)
    rw [List.map_cons, ← ih next, ← correct]
    rfl

-- Each piece of a script is told of as if it were analyzed alone, once there is a map to
-- keep the analyses in.
theorem analyze_pieces (source : Bytes) (created : library.Creates settings.cacheSize) :
    (analyze settings source library).map Finding.told =
      (split settings.effectiveRawBackslash source).map fun piece =>
        (piece.line, Statement.analyze settings.effectiveRawBackslash piece.text) := by
  rw [analyze, Cache.new_of_creates created]
  exact findings_told _ (Cache.ofCapacity_sound settings.cacheSize) _

-- Settings that agree on escaping tell the same of a script, whatever they keep: each piece
-- as if it were analyzed alone. The maps that they ask for have to be there.
theorem analyze_told (library : LruLibrary) (settings other : Settings) (source : Bytes)
    (flag : other.rawBackslash = settings.rawBackslash)
    (mode : other.sqlMode = settings.sqlMode)
    (created : library.Creates settings.cacheSize)
    (otherCreated : library.Creates other.cacheSize) :
    (analyze settings source library).map Finding.told =
      (split settings.effectiveRawBackslash source).map (fun piece =>
        (piece.line, Statement.analyze settings.effectiveRawBackslash piece.text)) ∧
    (analyze other source library).map Finding.told =
      (analyze settings source library).map Finding.told := by
  have escaping : other.effectiveRawBackslash = settings.effectiveRawBackslash := by
    unfold Settings.effectiveRawBackslash
    rw [flag, mode]
  have each := analyze_pieces source created
  refine ⟨each, ?_⟩
  rw [each, analyze_pieces source otherCreated, escaping]

theorem analyze_told_four :
    let library : LruLibrary := .exact
    let settings : Settings := { rawBackslash := true, cacheSize := 0 }
    let other : Settings := { rawBackslash := true, cacheSize := 1, maxPacket := 64 }
    let source := Bytes.ofString "SELECT ?;\nSELECT 'a\\';SELECT ?;SELECT ?"
    other.rawBackslash = settings.rawBackslash ∧ other.sqlMode = settings.sqlMode ∧
      library.Creates settings.cacheSize ∧ library.Creates other.cacheSize ∧
      (split settings.effectiveRawBackslash source).length = 4 ∧
      (analyze settings source library).map Finding.told =
        (split settings.effectiveRawBackslash source).map (fun piece =>
          (piece.line, Statement.analyze settings.effectiveRawBackslash piece.text)) ∧
      (analyze other source library).map Finding.told =
        (analyze settings source library).map Finding.told := by
  intro library settings other source
  have created : library.Creates settings.cacheSize := LruLibrary.exact_creates _
  have otherCreated : library.Creates other.cacheSize := LruLibrary.exact_creates _
  exact ⟨rfl, rfl, created, otherCreated, by decide +kernel,
    analyze_told library settings other source rfl rfl created otherCreated⟩

end Script
end InsertBatch
