import InsertBatch.Selection

namespace InsertBatch

namespace Component
variable {a b c : Component} {as bs cs : List Component}

theorem before_iff : a.before b = true ↔ a.rank < b.rank ∨
    ∃ name other, a = .normal name ∧ b = .normal other ∧ name < other := by
  unfold before
  split
  · rename_i name other
    constructor
    · intro earlier
      exact .inr ⟨name, other, rfl, rfl, of_decide_eq_true earlier⟩
    · rintro (lower | ⟨_, _, first, second, earlier⟩)
      · exact absurd lower (Nat.lt_irrefl _)
      · cases first
        cases second
        exact decide_eq_true earlier
  · rename_i outside
    rw [decide_eq_true_iff]
    constructor
    · exact .inl
    · rintro (lower | ⟨name, other, rfl, rfl, _⟩)
      · exact lower
      · exact (outside name other rfl rfl).elim

theorem normal_of_rank (same : a.rank = b.rank) (apart : a ≠ b) :
    ∃ name other, a = .normal name ∧ b = .normal other ∧ name ≠ other := by
  cases a <;> cases b <;> simp_all [rank]

theorem before_irrefl (a : Component) : a.before a = false := by
  rw [← Bool.not_eq_true, before_iff]
  rintro (lower | ⟨name, _, rfl, same, earlier⟩)
  · exact Nat.lt_irrefl _ lower
  · cases same
    exact String.lt_irrefl name earlier

theorem before_trans (first : a.before b = true) (second : b.before c = true) :
    a.before c = true := by
  rw [before_iff] at first second ⊢
  rcases first with lower | ⟨name, middle, rfl, rfl, earlier⟩
  · rcases second with higher | ⟨_, last, rfl, rfl, _⟩
    · exact .inl (Nat.lt_trans lower higher)
    · exact .inl lower
  · rcases second with higher | ⟨_, last, same, rfl, later⟩
    · exact .inl higher
    · cases same
      exact .inr ⟨name, last, rfl, rfl, String.lt_trans earlier later⟩

theorem before_total (apart : a ≠ b) : a.before b = true ∨ b.before a = true := by
  rw [before_iff, before_iff]
  rcases Nat.lt_trichotomy a.rank b.rank with lower | same | higher
  · exact .inl (.inl lower)
  · obtain ⟨name, other, rfl, rfl, differ⟩ := normal_of_rank same apart
    rcases String.le_total name other with below | above
    · refine .inl (.inr ⟨name, other, rfl, rfl, String.not_le.mp fun above => ?_⟩)
      exact differ (String.le_antisymm below above)
    · refine .inr (.inr ⟨other, name, rfl, rfl, String.not_le.mp fun below => ?_⟩)
      exact differ (String.le_antisymm below above)
  · exact .inr (.inl higher)

-- The first component that differs decides, and a path comes before what lies below it.
def Earlier (as bs : List Component) : Prop := List.Lex (fun a b => a.before b = true) as bs

theorem Earlier.irrefl (as : List Component) : ¬Earlier as as :=
  List.lex_irrefl (fun a => by simp [before_irrefl]) as

theorem Earlier.trans (first : Earlier as bs) (second : Earlier bs cs) : Earlier as cs :=
  List.lex_trans before_trans first second

instance : Std.Irrefl Earlier := ⟨Earlier.irrefl⟩

instance : Std.Antisymm Earlier :=
  ⟨fun as _ first second => absurd (first.trans second) (Earlier.irrefl as)⟩

theorem precedes_iff : precedes as bs = true ↔ as = bs ∨ Earlier as bs := by
  induction as generalizing bs with
  | nil =>
    cases bs with
    | nil => simp [precedes]
    | cons b bs => exact iff_of_true rfl (.inr .nil)
  | cons a as ih =>
    cases bs with
    | nil => simp [precedes, Earlier]
    | cons b bs =>
      by_cases same : a = b
      · subst same
        simp [precedes, Earlier, List.cons_lex_cons_iff, before_irrefl, ih]
      · simp [precedes, Earlier, List.cons_lex_cons_iff, same]

theorem precedes_trans (first : precedes as bs = true) (second : precedes bs cs = true) :
    precedes as cs = true := by
  rw [precedes_iff] at first second ⊢
  rcases first with rfl | first
  · exact second
  · rcases second with rfl | second
    · exact .inr first
    · exact .inr (first.trans second)

theorem precedes_total (as bs : List Component) :
    precedes as bs = true ∨ precedes bs as = true := by
  induction as generalizing bs with
  | nil => exact .inl rfl
  | cons a as ih =>
    cases bs with
    | nil => exact .inr rfl
    | cons b bs =>
      by_cases same : a = b
      · subst same
        simpa [precedes] using ih bs
      · simpa [precedes, same, Ne.symm same] using before_total same

end Component

namespace Selection
open Component (Earlier)
variable {previous path : Path} {list : List Path}

theorem same_iff {path other : Path} :
    path.same other = true ↔ path.components = other.components := beq_iff_eq

theorem changesFrom_subset (previous : Path) (list : List Path) :
    changesFrom previous list ⊆ list := by
  induction list generalizing previous with
  | nil => exact List.Subset.refl _
  | cons path rest ih =>
    rw [changesFrom]
    split
    · exact List.subset_cons_of_subset _ (ih previous)
    · exact List.cons_subset_cons _ (ih path)

-- Of equal paths one is kept.
theorem changesFrom_covers (member : path ∈ list) :
    ∃ kept ∈ previous :: changesFrom previous list, kept.components = path.components := by
  induction list generalizing previous with
  | nil => cases member
  | cons first rest ih =>
    rw [changesFrom]
    split
    · rename_i repeated
      rcases List.mem_cons.mp member with rfl | later
      · exact ⟨previous, List.mem_cons_self, (same_iff.mp repeated).symm⟩
      · exact ih later
    · rcases List.mem_cons.mp member with rfl | later
      · exact ⟨path, by simp, rfl⟩
      · obtain ⟨kept, listed, same⟩ := @ih first later
        exact ⟨kept, List.mem_cons_of_mem _ listed, same⟩

-- Where equal paths stand side by side, what is kept strictly increases.
theorem changesFrom_increasing
    (sorted : (previous :: list).Pairwise fun a b => a.precedes b = true) :
    (previous :: changesFrom previous list).Pairwise
      fun a b => Earlier a.components b.components := by
  induction list generalizing previous with
  | nil => exact List.pairwise_singleton _ _
  | cons path rest ih =>
    obtain ⟨first, later⟩ := List.pairwise_cons.mp sorted
    rw [changesFrom]
    split
    · obtain ⟨_, behind⟩ := List.pairwise_cons.mp later
      exact ih (List.pairwise_cons.mpr ⟨fun other member => first other (.tail _ member), behind⟩)
    · rename_i differs
      have increasing := ih later
      have step : Earlier previous.components path.components := by
        rcases Component.precedes_iff.mp (first path List.mem_cons_self) with same | earlier
        · exact absurd (same_iff.mpr same.symm) differs
        · exact earlier
      refine List.pairwise_cons.mpr ⟨?_, increasing⟩
      intro other member
      rcases List.mem_cons.mp member with rfl | behind
      · exact step
      · exact step.trans ((List.pairwise_cons.mp increasing).1 other behind)

theorem firstOfEach_subset (list : List Path) : firstOfEach list ⊆ list := by
  cases list with
  | nil => exact List.Subset.refl _
  | cons path rest => exact List.cons_subset_cons _ (changesFrom_subset path rest)

theorem firstOfEach_covers (member : path ∈ list) :
    ∃ kept ∈ firstOfEach list, kept.components = path.components := by
  cases list with
  | nil => cases member
  | cons first rest =>
    rcases List.mem_cons.mp member with rfl | later
    · exact ⟨path, List.mem_cons_self, rfl⟩
    · exact changesFrom_covers later

theorem firstOfEach_increasing (sorted : list.Pairwise fun a b => a.precedes b = true) :
    (firstOfEach list).Pairwise fun a b => Earlier a.components b.components := by
  cases list with
  | nil => exact .nil
  | cons path rest => exact changesFrom_increasing sorted

variable {system : FileSystem} {settings : Settings} {inputs : List Path}

theorem paths_increasing (system : FileSystem) (settings : Settings) (inputs : List Path) :
    (paths system settings inputs).Pairwise fun a b => Earlier a.components b.components := by
  apply firstOfEach_increasing
  apply List.pairwise_mergeSort
  · intro a b c
    exact Component.precedes_trans
  · intro a b
    exact Bool.or_eq_true_iff.mpr (Component.precedes_total _ _)

theorem paths_found (listed : path ∈ paths system settings inputs) :
    ∃ input ∈ inputs, path ∈ ofInput system (patterns settings) input :=
  List.mem_flatMap.mp (List.mem_mergeSort.mp (firstOfEach_subset _ listed))

theorem paths_covers {input : Path} (given : input ∈ inputs)
    (found : path ∈ ofInput system (patterns settings) input) :
    ∃ listed ∈ paths system settings inputs, listed.components = path.components :=
  firstOfEach_covers (List.mem_mergeSort.mpr (List.mem_flatMap.mpr ⟨input, given, found⟩))

end Selection
end InsertBatch
