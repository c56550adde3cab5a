import InsertBatch.Proofs.CacheHistories
import Mathlib.Data.List.DropRight

namespace InsertBatch.Cache
open Entries (lookup_absent lookup_present mem_of_lookup)
variable {cache : Cache} {key : CacheKey} {found : Analysis}

-- The counters against the store. The balance needs distinct keys: storing a key a second
-- time would push out an entry without a miss that had brought it in.
structure Balanced (cache : Cache) : Prop where
  distinct : (cache.entries.map Prod.fst).Nodup
  fits : cache.size ≤ cache.capacity
  stored : 1 ≤ cache.capacity → cache.misses = cache.size + cache.evictions
  disabled : cache.capacity = 0 → cache.hits = 0 ∧ cache.evictions = 0

theorem ofCapacity_balanced (capacity : Nat) : Balanced (ofCapacity capacity) where
  distinct := .nil
  fits := Nat.zero_le _
  stored _ := rfl
  disabled _ := ⟨rfl, rfl⟩

theorem clear_balanced (cache : Cache) : Balanced cache.clear where
  distinct := .nil
  fits := Nat.zero_le _
  stored _ := rfl
  disabled _ := ⟨rfl, rfl⟩

theorem touch_keys (cache : Cache) (key : CacheKey) (found : Analysis) :
    (cache.touch key found).entries.map Prod.fst =
      key :: (cache.entries.map Prod.fst).filter (· != key) := by
  rw [touch_entries, List.map_cons, List.filter_map]
  rfl

-- An entry that is used moves to the front, and no other leaves.
theorem touch_size (distinct : (cache.entries.map Prod.fst).Nodup)
    (present : key ∈ cache.entries.map Prod.fst) : (cache.touch key found).size = cache.size := by
  have others := List.length_erase_of_mem present
  have some := List.length_pos_of_mem present
  have moved := congrArg List.length (touch_keys cache key found)
  rw [distinct.erase_eq_filter] at others
  rw [List.length_map, List.length_cons] at moved
  rw [List.length_map] at others some
  rw [size, size]
  omega

theorem touch_balanced (balanced : Balanced cache)
    (stored : cache.entries.lookup key = some found) : Balanced (cache.touch key found) := by
  have same : (cache.touch key found).size = cache.size :=
    touch_size balanced.distinct (lookup_present stored)
  refine ⟨?_, ?_, ?_, ?_⟩
  · rw [touch_keys]
    exact List.nodup_cons.mpr ⟨by simp [List.mem_filter], balanced.distinct.filter _⟩
  · rw [same]
    exact balanced.fits
  · rw [same]
    exact balanced.stored
  · intro none
    have bound := balanced.fits
    have some := List.length_pos_of_mem (mem_of_lookup stored)
    rw [size] at bound
    change cache.capacity = 0 at none
    omega

theorem insert_size (cache : Cache) (key : CacheKey) (fresh : Analysis) :
    (cache.insert key fresh).size = min cache.capacity (cache.size + 1) := List.length_take

-- A miss adds an entry, and in a full cache it takes one away.
theorem insert_balanced (balanced : Balanced cache) (missing : cache.entries.lookup key = none)
    (fresh : Analysis) : Balanced (cache.insert key fresh) := by
  have bound := balanced.fits
  refine ⟨?_, ?_, ?_, ?_⟩
  · rw [insert_entries, List.map_take, List.map_cons]
    exact (List.nodup_cons.mpr ⟨lookup_absent missing, balanced.distinct⟩).sublist
      (List.take_sublist _ _)
  · rw [insert_size]
    exact Nat.min_le_left _ _
  · intro enabled
    change 1 ≤ cache.capacity at enabled
    have before := balanced.stored enabled
    rw [insert_size]
    change cache.misses + 1 = _ + (cache.evictions + _)
    split <;> omega
  · intro none
    have before := balanced.disabled none
    refine ⟨before.1, ?_⟩
    change cache.evictions + _ = 0
    change cache.capacity = 0 at none
    rw [if_neg (by omega), before.2]

theorem step_balanced (balanced : Balanced cache) (call : Call) : Balanced (cache.step call) := by
  cases call with
  | clear => exact clear_balanced cache
  | get key =>
    rcases get_parts cache key with ⟨found, stored, _, next⟩ | ⟨missing, _, next⟩
    · rw [next]
      exact touch_balanced balanced stored
    · rw [next]
      exact insert_balanced balanced missing _

theorem after_balanced (capacity : Nat) (calls : List Call) : Balanced (after capacity calls) := by
  induction calls using List.reverseRecOn with
  | nil => exact ofCapacity_balanced capacity
  | append_singleton calls call ih =>
    rw [after_snoc]
    exact step_balanced ih call

-- The calls since the cache was last cleared. All of them are requests.
def sinceCleared (calls : List Call) : List Call := calls.rtakeWhile (· != .clear)

-- A request is counted once, as a hit or as a miss.
theorem step_counted (cache : Cache) (key : CacheKey) :
    (cache.step (.get key)).hits + (cache.step (.get key)).misses =
      cache.hits + cache.misses + 1 := by
  rcases hit_or_miss cache key with ⟨_, ⟨hits, misses⟩, _⟩ | ⟨_, ⟨hits, misses⟩, _⟩ <;> omega

theorem after_counted (capacity : Nat) (calls : List Call) :
    (after capacity calls).hits + (after capacity calls).misses = (sinceCleared calls).length := by
  induction calls using List.reverseRecOn with
  | nil => rfl
  | append_singleton calls call ih =>
    rw [after_snoc, sinceCleared, List.rtakeWhile_concat]
    cases call with
    | clear => rfl
    | get key =>
      rw [step_counted, ih, if_pos (by simp), List.length_append]
      rfl

-- What a cache of this capacity tells of itself, as it is after these calls.
structure Accounts (capacity : Nat) (calls : List Call) (cache : Cache) : Prop where
  kept : cache.capacity = capacity
  cleared : cache.clear.capacity = capacity ∧ cache.clear.stats = ⟨0, 0, 0, 0⟩
  entries : cache.stats.entries = cache.size ∧ cache.size ≤ capacity
  distinct : (cache.entries.map Prod.fst).Nodup
  requests : cache.stats.hits + cache.stats.misses = (sinceCleared calls).length
  stored : 1 ≤ capacity → cache.stats.misses = cache.stats.entries + cache.stats.evictions
  disabled : capacity = 0 →
    cache.stats.hits = 0 ∧ cache.stats.evictions = 0 ∧ cache.stats.entries = 0

-- Whatever was asked: every request was a hit or a miss, and every miss brought in an
-- entry that is still there or was pushed out.
theorem after_accounts (capacity : Nat) (calls : List Call) :
    Accounts capacity calls (after capacity calls) := by
  have balanced := after_balanced capacity calls
  have room := after_capacity capacity calls
  have bound := balanced.fits
  rw [room] at bound
  refine ⟨room, ⟨room, rfl⟩, ⟨rfl, bound⟩, balanced.distinct, after_counted capacity calls, ?_, ?_⟩
  · intro enabled
    exact balanced.stored (room.symm ▸ enabled)
  · intro none
    obtain ⟨hits, evictions⟩ := balanced.disabled (room.trans none)
    exact ⟨hits, evictions, Nat.le_zero.mp (none ▸ bound)⟩

end InsertBatch.Cache
