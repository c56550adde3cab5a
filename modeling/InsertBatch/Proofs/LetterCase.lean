import InsertBatch.Text.Blank
import InsertBatch.Text.Lowercase

namespace InsertBatch.Text
variable {c : Char} {start : Nat}

-- Only the ASCII letters have another case for `Char`, so that what is to be shown of it is
-- a table of 26 rows.
def lettersFrom (start : Nat) : List Char := (List.range' start 26).map Char.ofNat

theorem mem_lettersFrom (above : start ≤ c.toNat) (below : c.toNat < start + 26) :
    c ∈ lettersFrom start :=
  List.mem_map.mpr ⟨c.toNat, List.mem_range'_1.mpr ⟨above, below⟩, Char.ofNat_toNat c⟩

theorem toUpper_cases (c : Char) : c ∈ lettersFrom 0x61 ∨ c.toUpper = c := by
  unfold Char.toUpper
  split
  · rename_i small
    exact .inl (mem_lettersFrom small.1 (Nat.lt_succ_of_le small.2))
  · exact .inr rfl

theorem toLower_cases (c : Char) : c ∈ lettersFrom 0x41 ∨ c.toLower = c := by
  unfold Char.toLower
  split
  · rename_i capital
    exact .inl (mem_lettersFrom capital.1 (Nat.lt_succ_of_le capital.2))
  · exact .inr rfl

-- What tells no letter from its capital tells no character from its own.
theorem toUpper_alike {α : Type} [BEq α] [LawfulBEq α] (told : Char → α)
    (table : ((lettersFrom 0x61).all fun c => told c.toUpper == told c) = true) (c : Char) :
    told c.toUpper = told c := by
  cases toUpper_cases c with
  | inl small => exact beq_iff_eq.mp (List.all_eq_true.mp table c small)
  | inr same => rw [same]

theorem toUpper_toUpper (c : Char) : c.toUpper.toUpper = c.toUpper :=
  toUpper_alike Char.toUpper (by decide +kernel) c

theorem toLower_toUpper (c : Char) : c.toUpper.toLower = c.toLower :=
  toUpper_alike Char.toLower (by decide +kernel) c

theorem isBlank_toUpper (c : Char) : isBlank c.toUpper = isBlank c :=
  toUpper_alike isBlank (by decide +kernel) c

theorem comma_of_toUpper (comma : c.toUpper = ',') : c = ',' := by
  have same := toUpper_alike (· == ',') (by decide +kernel) c
  rw [comma] at same
  exact beq_iff_eq.mp same.symm

theorem toUpper_toLower (c : Char) : c.toLower.toUpper = c.toUpper := by
  have table : ((lettersFrom 0x41).all fun c => c.toLower.toUpper == c.toUpper) = true := by
    decide +kernel
  cases toLower_cases c with
  | inl capital => exact beq_iff_eq.mp (List.all_eq_true.mp table c capital)
  | inr same => rw [same]

-- The lowercase table agrees on the letters.
theorem simpleLower_capital (capital : c ∈ lettersFrom 0x41) : simpleLower c = c.toLower := by
  have table : ((lettersFrom 0x41).all fun c => simpleLower c == c.toLower) = true := by
    decide +kernel
  exact beq_iff_eq.mp (List.all_eq_true.mp table c capital)

end InsertBatch.Text
