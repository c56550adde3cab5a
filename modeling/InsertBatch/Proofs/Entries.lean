-- Tables written as lists of entries. Of two entries with one key the first counts.
namespace InsertBatch.Entries
variable {κ α : Type} {entries : List (κ × α)} {key : κ} {found : α}

theorem exists_entry (present : key ∈ entries.map Prod.fst) :
    ∃ found, (key, found) ∈ entries := by
  obtain ⟨⟨_, found⟩, member, rfl⟩ := List.mem_map.mp present
  exact ⟨found, member⟩

variable [BEq κ] [LawfulBEq κ]

theorem mem_of_lookup (stored : entries.lookup key = some found) : (key, found) ∈ entries := by
  obtain ⟨front, back, rfl, _⟩ := List.lookup_eq_some_iff.mp stored
  exact List.mem_append_right _ List.mem_cons_self

theorem lookup_isSome (entries : List (κ × α)) (key : κ) :
    (entries.lookup key).isSome = true ↔ key ∈ entries.map Prod.fst := by
  rw [List.lookup_isSome_iff, List.mem_map]
  constructor
  · intro found
    obtain ⟨entry, member, same⟩ := found
    exact ⟨entry, member, (beq_iff_eq.mp same).symm⟩
  · intro found
    obtain ⟨entry, member, same⟩ := found
    exact ⟨entry, member, beq_iff_eq.mpr same.symm⟩

theorem lookup_present (stored : entries.lookup key = some found) :
    key ∈ entries.map Prod.fst := List.mem_map_of_mem (mem_of_lookup stored)

theorem lookup_absent (missing : entries.lookup key = none) : key ∉ entries.map Prod.fst := by
  rw [← lookup_isSome, missing]
  exact Bool.false_ne_true

end InsertBatch.Entries
