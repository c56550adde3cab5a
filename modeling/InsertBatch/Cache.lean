import InsertBatch.Statement

namespace InsertBatch

-- An analysis that several holders share. Two with one serial are the same one,
-- not merely equal; equal text that is analyzed again gets another serial.
structure Analysis where
  serial : Nat
  statement : Statement
deriving DecidableEq, Repr

structure CacheKey where
  sql : Bytes
  rawBackslash : Bool
deriving DecidableEq, Repr

-- An exact map, as the lru library (0.12) documents its own. `entries` has the most recently
-- used first and never more than `capacity`.
structure LruMap where
  capacity : Nat
  entries : List (CacheKey × Analysis) := []
deriving DecidableEq, Repr

namespace LruMap

-- An entry that is read becomes the most recent.
def promote (map : LruMap) (key : CacheKey) (found : Analysis) : LruMap :=
  { map with entries := (key, found) :: map.entries.filter (·.1 != key) }

-- A new entry goes in front. The least recent one makes room when the map is full.
def push (map : LruMap) (key : CacheKey) (fresh : Analysis) : LruMap :=
  { map with entries := ((key, fresh) :: map.entries).take map.capacity }

end LruMap

-- How the library makes its maps. It is not part of this program, and it need not be able
-- to make a map of every capacity: nothing is known of the result where it is not.
structure LruLibrary where
  create : Nat → LruMap

namespace LruLibrary

-- What the program relies on: there is an empty exact map of this capacity to be had. None
-- is asked for when the capacity is zero.
def Creates (library : LruLibrary) (capacity : Nat) : Prop :=
  0 < capacity → library.create capacity = { capacity }

-- The library with room for every map.
def exact : LruLibrary where
  create capacity := { capacity }

theorem exact_creates (capacity : Nat) : exact.Creates capacity := fun _ => rfl

end LruLibrary

-- The analyses of one connection. `analyzed` counts all of them and outlives `clear`.
structure Cache extends LruMap where
  hits : Nat := 0
  misses : Nat := 0
  evictions : Nat := 0
  analyzed : Nat := 0
deriving DecidableEq, Repr

namespace Cache

-- What a cache tells of itself.
structure Stats where
  entries : Nat
  hits : Nat
  misses : Nat
  evictions : Nat
deriving DecidableEq, Repr

def defaultCapacity : Nat := 250

-- A cache over an exact map. Without capacity there is no map, and one that holds nothing
-- stands for it.
def ofCapacity (capacity : Nat) : Cache := { capacity }

-- A cache as the program makes it, over a map of the library's.
def new (library : LruLibrary) (capacity : Nat) : Cache :=
  if capacity = 0 then ofCapacity 0 else { toLruMap := library.create capacity }

theorem new_of_creates {library : LruLibrary} {capacity : Nat}
    (created : library.Creates capacity) : new library capacity = ofCapacity capacity := by
  unfold new
  split
  · rename_i none
    rw [none]
  · rename_i some
    rw [created (Nat.pos_of_ne_zero some)]
    rfl

def size (cache : Cache) : Nat := cache.entries.length

def stats (cache : Cache) : Stats := ⟨cache.size, cache.hits, cache.misses, cache.evictions⟩

def touch (cache : Cache) (key : CacheKey) (found : Analysis) : Cache :=
  { cache with
    toLruMap := cache.toLruMap.promote key found
    hits := cache.hits + 1 }

-- A cache without capacity stores nothing and evicts nothing.
def insert (cache : Cache) (key : CacheKey) (fresh : Analysis) : Cache :=
  { cache with
    toLruMap := cache.toLruMap.push key fresh
    misses := cache.misses + 1
    evictions := cache.evictions +
      (if 0 < cache.capacity ∧ cache.capacity ≤ cache.size then 1 else 0)
    analyzed := cache.analyzed + 1 }

theorem touch_entries (cache : Cache) (key : CacheKey) (found : Analysis) :
    (cache.touch key found).entries = (key, found) :: cache.entries.filter (·.1 != key) := rfl

theorem insert_entries (cache : Cache) (key : CacheKey) (fresh : Analysis) :
    (cache.insert key fresh).entries = ((key, fresh) :: cache.entries).take cache.capacity := rfl

def get (cache : Cache) (rawBackslash : Bool) (sql : Bytes) : Analysis × Cache :=
  let key : CacheKey := ⟨sql, rawBackslash⟩
  match cache.entries.lookup key with
  | some found => (found, cache.touch key found)
  | none =>
    let fresh : Analysis := ⟨cache.analyzed, Statement.analyze rawBackslash sql⟩
    (fresh, cache.insert key fresh)

-- For when the meaning of the texts may have changed.
def clear (cache : Cache) : Cache :=
  { cache with entries := [], hits := 0, misses := 0, evictions := 0 }

end Cache
end InsertBatch
