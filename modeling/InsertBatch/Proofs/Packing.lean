import InsertBatch.Batch.Packing

namespace InsertBatch.Packing

-- Every way to cut items into consecutive groups, none of them empty.
structure Divides (items : List α) (groups : List (List α)) : Prop where
  covers : groups.flatten = items
  filled : ∀ group ∈ groups, group ≠ []

-- A lone item may be too large; two or more must stay within the limit.
def Admits (size : List α → Nat) (limit : Nat) (groups : List (List α)) : Prop :=
  ∀ group ∈ groups, 2 ≤ group.length → size group ≤ limit

-- No admitted division of the items has fewer groups than this one.
structure Least (size : List α → Nat) (limit : Nat) (items : List α)
    (groups : List (List α)) : Prop where
  divides : Divides items groups
  admits : Admits size limit groups
  least : ∀ others, Divides items others → Admits size limit others →
    groups.length ≤ others.length

-- What further items add to a group: a separator and their size each.
def growth (size : α → Nat) : List α → Nat
  | [] => 0
  | item :: group => 1 + size item + growth size group

def cost (fixed : Nat) (size : α → Nat) : List α → Nat
  | [] => fixed
  | item :: group => fixed + size item + growth size group

-- The ways to continue when the open group costs `length`: each item joins it, if it
-- stays within the limit, or opens the next one. The count is of the groups opened.
inductive Packs (fixed limit : Nat) (size : α → Nat) : Nat → List α → Nat → Prop
  | done : Packs fixed limit size length [] 0
  | join (fits : length + 1 + size item ≤ limit)
      (rest : Packs fixed limit size (length + 1 + size item) items count) :
      Packs fixed limit size length (item :: items) count
  | open (rest : Packs fixed limit size (fixed + size item) items count) :
      Packs fixed limit size length (item :: items) (count + 1)

variable {fixed limit length other count : Nat} {size : α → Nat} {item : α}
  {items group : List α} {groups : List (List α)}

theorem Divides.mem (divides : Divides items groups) (member : group ∈ groups)
    (inside : item ∈ group) : item ∈ items := by
  rw [← divides.covers]
  exact List.mem_flatten_of_mem member inside

theorem growth_congr {found wanted : α → Nat}
    (same : ∀ item ∈ group, found item = wanted item) :
    growth found group = growth wanted group := by
  induction group with
  | nil => rfl
  | cons item group ih =>
    obtain ⟨first, rest⟩ := List.forall_mem_cons.mp same
    rw [growth, growth, first, ih rest]

theorem cost_congr {found wanted : α → Nat} (same : ∀ item ∈ group, found item = wanted item) :
    cost fixed found group = cost fixed wanted group := by
  cases group with
  | nil => rfl
  | cons item group =>
    obtain ⟨first, rest⟩ := List.forall_mem_cons.mp same
    rw [cost, cost, first, growth_congr rest]

theorem packFrom_join (fits : length + 1 + size item ≤ limit) :
    packFrom fixed limit size length (item :: items) =
      (item :: (packFrom fixed limit size (length + 1 + size item) items).1,
        (packFrom fixed limit size (length + 1 + size item) items).2) := by
  rw [packFrom, if_neg (Nat.not_lt.mpr fits)]

theorem packFrom_open (exceeds : limit < length + 1 + size item) :
    packFrom fixed limit size length (item :: items) =
      ([], (item :: (packFrom fixed limit size (fixed + size item) items).1) ::
        (packFrom fixed limit size (fixed + size item) items).2) := by
  rw [packFrom, if_pos exceeds]

theorem packFrom_covers (fixed limit : Nat) (size : α → Nat) (length : Nat) (items : List α) :
    (packFrom fixed limit size length items).1 ++
      (packFrom fixed limit size length items).2.flatten = items := by
  induction items generalizing length with
  | nil => rfl
  | cons item items ih =>
    rcases Nat.lt_or_ge limit (length + 1 + size item) with exceeds | fits
    · rw [packFrom_open exceeds, List.nil_append, List.flatten_cons, List.cons_append, ih]
    · rw [packFrom_join fits, List.cons_append, ih]

theorem packFrom_filled (fixed limit : Nat) (size : α → Nat) (length : Nat) (items : List α) :
    ∀ group ∈ (packFrom fixed limit size length items).2, group ≠ [] := by
  induction items generalizing length with
  | nil =>
    intro group member
    cases member
  | cons item items ih =>
    rcases Nat.lt_or_ge limit (length + 1 + size item) with exceeds | fits
    · rw [packFrom_open exceeds]
      intro group member
      rcases List.mem_cons.mp member with rfl | later
      · exact List.cons_ne_nil _ _
      · exact ih _ group later
    · rw [packFrom_join fits]
      exact ih _

theorem admits_cons :
    Admits (cost fixed size) limit ((item :: group) :: groups) ↔
      (group ≠ [] → fixed + size item + growth size group ≤ limit) ∧
        Admits (cost fixed size) limit groups := by
  have two : 2 ≤ (item :: group).length ↔ group ≠ [] := by
    rw [List.length_cons, ← List.length_pos_iff]
    omega
  unfold Admits
  rw [List.forall_mem_cons, two]
  rfl

-- The running length is the cost of the open group, so its items and those of every
-- group behind it fit.
theorem packFrom_admits (fixed limit : Nat) (size : α → Nat) (length : Nat) (items : List α) :
    ((packFrom fixed limit size length items).1 ≠ [] →
        length + growth size (packFrom fixed limit size length items).1 ≤ limit) ∧
      Admits (cost fixed size) limit (packFrom fixed limit size length items).2 := by
  induction items generalizing length with
  | nil =>
    refine ⟨fun more => absurd rfl more, ?_⟩
    intro group member
    cases member
  | cons item items ih =>
    rcases Nat.lt_or_ge limit (length + 1 + size item) with exceeds | fits
    · obtain ⟨grows, admits⟩ := ih (fixed + size item)
      rw [packFrom_open exceeds]
      exact ⟨fun more => absurd rfl more, admits_cons.mpr ⟨grows, admits⟩⟩
    · obtain ⟨grows, admits⟩ := ih (length + 1 + size item)
      rw [packFrom_join fits]
      refine ⟨fun _ => ?_, admits⟩
      rw [growth]
      by_cases alone : (packFrom fixed limit size (length + 1 + size item) items).1 = []
      · rw [alone, growth]
        omega
      · have bound := grows alone
        omega

theorem pack_cons (item : α) (items : List α) :
    pack fixed limit size (item :: items) =
      (item :: (packFrom fixed limit size (fixed + size item) items).1) ::
        (packFrom fixed limit size (fixed + size item) items).2 := rfl

theorem pack_divides (fixed limit : Nat) (size : α → Nat) (items : List α) :
    Divides items (pack fixed limit size items) := by
  cases items with
  | nil => exact ⟨rfl, fun group member => by cases member⟩
  | cons item items =>
    rw [pack_cons]
    refine ⟨?_, fun group member => ?_⟩
    · rw [List.flatten_cons, List.cons_append, packFrom_covers]
    · rcases List.mem_cons.mp member with rfl | later
      · exact List.cons_ne_nil _ _
      · exact packFrom_filled _ _ _ _ _ group later

theorem pack_admits (fixed limit : Nat) (size : α → Nat) (items : List α) :
    Admits (cost fixed size) limit (pack fixed limit size items) := by
  cases items with
  | nil =>
    intro group member
    cases member
  | cons item items =>
    rw [pack_cons]
    exact admits_cons.mpr (packFrom_admits _ _ _ _ _)

-- Greedy stays ahead of any other way with an open group at least as long, and is
-- never more than one group behind. That the other length covers the fixed part
-- makes up for that group when greedy opens one.
theorem Packs.ahead (packs : Packs fixed limit size other items count) (covers : fixed ≤ other) :
    (∀ length, length ≤ other → (packFrom fixed limit size length items).2.length ≤ count) ∧
      ∀ length, (packFrom fixed limit size length items).2.length ≤ count + 1 := by
  induction packs with
  | done => exact ⟨fun _ _ => Nat.le_refl _, fun _ => Nat.zero_le _⟩
  | join fits rest ih =>
    rename_i other item items count
    obtain ⟨ahead, close⟩ := ih (by omega)
    refine ⟨fun length shorter => ?_, fun length => ?_⟩
    · rw [packFrom_join (by omega)]
      exact ahead _ (by omega)
    · rcases Nat.lt_or_ge limit (length + 1 + size item) with exceeds | fits
      · rw [packFrom_open exceeds]
        exact Nat.succ_le_succ (ahead _ (by omega))
      · rw [packFrom_join fits]
        exact close _
  | «open» rest ih =>
    rename_i item items count other
    obtain ⟨ahead, close⟩ := ih (by omega)
    have bound : ∀ length,
        (packFrom fixed limit size length (item :: items)).2.length ≤ count + 1 := by
      intro length
      rcases Nat.lt_or_ge limit (length + 1 + size item) with exceeds | fits
      · rw [packFrom_open exceeds]
        exact Nat.succ_le_succ (ahead _ (Nat.le_refl _))
      · rw [packFrom_join fits]
        exact close _
    exact ⟨fun length _ => bound length, fun length => Nat.le_succ_of_le (bound length)⟩

theorem Packs.joins (fits : group ≠ [] → length + growth size group ≤ limit)
    (rest : ∀ length, Packs fixed limit size length items count) :
    Packs fixed limit size length (group ++ items) count := by
  induction group generalizing length with
  | nil => exact rest length
  | cons item group ih =>
    have bound := fits (List.cons_ne_nil _ _)
    rw [growth] at bound
    exact .join (by omega) (ih fun _ => by omega)

-- Every admitted division is such a way.
theorem Packs.of_admits (filled : ∀ group ∈ groups, group ≠ [])
    (admits : Admits (cost fixed size) limit groups) (length : Nat) :
    Packs fixed limit size length groups.flatten groups.length := by
  induction groups generalizing length with
  | nil => exact .done
  | cons group groups ih =>
    obtain ⟨present, later⟩ := List.forall_mem_cons.mp filled
    cases group with
    | nil => exact absurd rfl present
    | cons item group =>
      obtain ⟨fits, admits⟩ := admits_cons.mp admits
      rw [List.flatten_cons, List.cons_append]
      exact .open (.joins fits (ih later admits))

theorem pack_least (fixed limit : Nat) (size : α → Nat) (items : List α) :
    Least (cost fixed size) limit items (pack fixed limit size items) := by
  refine ⟨pack_divides _ _ _ _, pack_admits _ _ _ _, ?_⟩
  rintro others ⟨rfl, filled⟩ admits
  cases others with
  | nil => exact Nat.le_refl _
  | cons group others =>
    obtain ⟨present, later⟩ := List.forall_mem_cons.mp filled
    cases group with
    | nil => exact absurd rfl present
    | cons item group =>
      obtain ⟨fits, admits⟩ := admits_cons.mp admits
      have packs : Packs fixed limit size (fixed + size item) (group ++ others.flatten)
          others.length := .joins fits (.of_admits later admits)
      rw [List.flatten_cons, List.cons_append, pack_cons]
      exact Nat.succ_le_succ ((packs.ahead (by omega)).1 _ (Nat.le_refl _))

-- Only the sizes of groups of these items matter.
theorem Least.congr {found wanted : List α → Nat} (least : Least found limit items groups)
    (same : ∀ group, group ≠ [] → (∀ item ∈ group, item ∈ items) →
      wanted group = found group) : Least wanted limit items groups := by
  have agree : ∀ {groups}, Divides items groups →
      (Admits wanted limit groups ↔ Admits found limit groups) := by
    intro groups divides
    refine forall_congr' fun group => forall_congr' fun member => ?_
    rw [same group (divides.filled group member) fun item inside => divides.mem member inside]
  obtain ⟨divides, admits, shortest⟩ := least
  exact ⟨divides, (agree divides).mpr admits, fun others divided admitted =>
    shortest others divided ((agree divided).mp admitted)⟩

theorem packFrom_map (change : α → β) (size : β → Nat) (length : Nat) (items : List α) :
    packFrom fixed limit size length (items.map change) =
      ((packFrom fixed limit (size <| change ·) length items).1.map change,
        (packFrom fixed limit (size <| change ·) length items).2.map (List.map change)) := by
  induction items generalizing length with
  | nil => rfl
  | cons item items ih =>
    rw [List.map_cons]
    rcases Nat.lt_or_ge limit (length + 1 + size (change item)) with exceeds | fits
    · simp only [packFrom, if_pos exceeds, ih, List.map_nil, List.map_cons]
    · simp only [packFrom, if_neg (Nat.not_lt.mpr fits), ih, List.map_cons]

theorem pack_map (change : α → β) (size : β → Nat) (items : List α) :
    pack fixed limit size (items.map change) =
      (pack fixed limit (size <| change ·) items).map (List.map change) := by
  cases items with
  | nil => rfl
  | cons item items =>
    rw [List.map_cons, pack_cons, pack_cons, packFrom_map]
    rfl

theorem Divides.length_le (divides : Divides items groups) : groups.length ≤ items.length := by
  obtain ⟨rfl, filled⟩ := divides
  induction groups with
  | nil => exact Nat.le_refl _
  | cons group groups ih =>
    obtain ⟨present, filled⟩ := List.forall_mem_cons.mp filled
    have positive := List.length_pos_iff.mpr present
    have later := ih filled
    rw [List.flatten_cons, List.length_append, List.length_cons]
    omega

theorem Divides.nil (divides : Divides ([] : List α) groups) : groups = [] :=
  List.eq_nil_of_length_eq_zero (Nat.le_zero.mp divides.length_le)

-- What is repeated behind each part may as well follow all of them.
theorem flatMap_append_perm (items : List α) (part : α → List β) (more : List β) :
    (items.flatMap fun item => part item ++ more).Perm
      (items.flatMap part ++ (List.replicate items.length more).flatten) := by
  induction items with
  | nil => exact .refl _
  | cons item items ih =>
    rw [List.flatMap_cons, List.flatMap_cons, List.length_cons, List.replicate_succ,
      List.flatten_cons, List.append_assoc, List.append_assoc]
    refine .append_left _ ((ih.append_left more).trans ?_)
    rw [← List.append_assoc, ← List.append_assoc]
    exact .append_right _ List.perm_append_comm

-- Repeated behind every item is repeated behind every group, and once more for each
-- item that is not the first of its group.
theorem Divides.flatMap_perm (divides : Divides items groups) (part : α → β) (more : List β) :
    (items.flatMap fun item => [part item] ++ more).Perm
      ((groups.flatMap fun group => group.map part ++ more) ++
        (List.replicate (items.length - groups.length) more).flatten) := by
  have lone := flatMap_append_perm items (fun item => [part item]) more
  have grouped := flatMap_append_perm groups (List.map part) more
  have same : groups.flatMap (List.map part) = items.flatMap fun item => [part item] := by
    rw [← divides.covers, List.flatMap_def, ← List.map_flatten, List.map_eq_flatMap]
  have copies : List.replicate items.length more = List.replicate groups.length more ++
      List.replicate (items.length - groups.length) more := by
    rw [List.replicate_append_replicate, Nat.add_sub_cancel' divides.length_le]
  rw [copies, List.flatten_append, ← List.append_assoc, ← same] at lone
  exact lone.trans (grouped.symm.append_right _)

theorem perm_append_iff {left right extra : List α} (perm : left.Perm (right ++ extra)) :
    left.Perm right ↔ extra = [] := by
  constructor
  · intro same
    have count := perm.length_eq
    rw [same.length_eq, List.length_append] at count
    exact List.eq_nil_of_length_eq_zero (by omega)
  · rintro rfl
    rwa [List.append_nil] at perm

theorem copies_nil (count : Nat) (more : List α) :
    (List.replicate count more).flatten = [] ↔ more = [] ∨ count = 0 := by
  cases count with
  | zero => simp
  | succ count => simp [List.flatten_eq_nil_iff, List.mem_replicate]

theorem flatMap_map_congr {render : α → γ} {parts : γ → List β} {expected : α → List β}
    (same : ∀ item ∈ items, parts (render item) = expected item) :
    (items.map render).flatMap parts = items.flatMap expected := by
  rw [List.flatMap_map, List.flatMap_def, List.flatMap_def]
  exact congrArg List.flatten (List.map_congr_left same)

end InsertBatch.Packing
