import InsertBatch.Proofs.BatchPlans

namespace InsertBatch

-- The first row of the wrong size stands here and has this size.
structure FirstMisfit (expected : Nat) (rows : List Row) (index got : Nat) : Prop where
  found : ∃ row, rows[index]? = some row ∧ row.length = got
  misfits : got ≠ expected
  fits : ∀ earlier row, earlier < index → rows[earlier]? = some row → row.length = expected

variable {expected first : Nat} {rows before after : List Row} {row : Row}

theorem misfit_parts (misfit : ∃ row ∈ rows, row.length ≠ expected) :
    ∃ before row after, rows = before ++ row :: after ∧
      (∀ earlier ∈ before, earlier.length = expected) ∧ row.length ≠ expected := by
  cases search : rows.find? (·.length != expected) with
  | none =>
    obtain ⟨row, member, wrong⟩ := misfit
    have fits := List.find?_eq_none.mp search row member
    exact absurd wrong (by simpa using fits)
  | some row =>
    obtain ⟨wrong, before, after, split, fits⟩ := List.find?_eq_some_iff_append.mp search
    refine ⟨before, row, after, split, ?_, by simpa using wrong⟩
    intro earlier member
    simpa using fits earlier member

theorem firstMisfit_split (fits : ∀ earlier ∈ before, earlier.length = expected)
    (wrong : row.length ≠ expected) :
    FirstMisfit expected (before ++ row :: after) before.length row.length := by
  refine ⟨⟨row, by simp, rfl⟩, wrong, ?_⟩
  intro earlier other less found
  rw [List.getElem?_append_left less] at found
  exact fits other (List.mem_of_getElem? found)

theorem misfit?_split (fits : ∀ earlier ∈ before, earlier.length = expected)
    (wrong : row.length ≠ expected) :
    misfit? expected (before ++ row :: after) = some (before.length, row.length) := by
  have clear : before.zipIdx.find? (·.1.length != expected) = none := by
    have none := (misfit?_none expected before).mpr fits
    exact Option.map_eq_none_iff.mp none
  rw [misfit?, List.zipIdx_append, List.find?_append, clear, List.zipIdx_cons, Option.none_or,
    List.find?_cons_of_pos (by simpa using wrong)]
  simp

theorem mapM_error {run : α → Except ε β} {result : α → β} {items : List α} {item : α}
    {error : ε} (each : ∀ item ∈ items, run item = .ok (result item))
    (fails : run item = .error error) (later : List α) :
    (items ++ item :: later).mapM run = .error error := by
  rw [List.mapM_append, mapM_ok each, List.mapM_cons, fails]
  rfl

namespace BatchPlan
open Packing (Divides)
variable {rawBackslash : Bool} {sql : Bytes} {statement : Statement} {chosen : Strategy}
  {groups : List (List Row)} {group : List Row}

-- The text that sends one group of a batch. Only a template is told where in the batch the
-- first row of the group stands.
def renderGroup (statement : Statement) (chosen : Strategy) (first : Nat) (group : List Row) :
    Except BindError Bytes :=
  match if chosen = .merged then statement.template? else none with
  | some template => template.render group first
  | none => (group.mapM statement.render).map (Bytes.join [Ascii.semicolon])

-- The groups one after another, up to the first that fails.
def renderGroups (statement : Statement) (chosen : Strategy) (first : Nat) :
    List (List Row) → Except BindError (List Bytes)
  | [] => .ok []
  | group :: groups => do
    let text ← renderGroup statement chosen first group
    let texts ← renderGroups statement chosen (first + group.length) groups
    return text :: texts

-- The row that an error names when a wrong row stands here.
def namedRow (chosen : Strategy) (index : Nat) : Nat := if chosen = .merged then index else 0

theorem renderGroup_ok (chosen : Strategy) (first : Nat) (fits : ∀ row ∈ group,
      row.length = (Statement.analyze rawBackslash sql).parameterCount) :
    ∃ text, renderGroup (Statement.analyze rawBackslash sql) chosen first group = .ok text := by
  have each := mapM_render fits
  unfold renderGroup
  split
  · rename_i template chosen
    have found := (Option.ite_none_right_eq_some.mp chosen).2
    rw [← Statement.template_parameterCount found, ← misfit?_none] at fits
    rw [Template.render, fits]
    exact ⟨_, rfl⟩
  · rw [each]
    exact ⟨_, rfl⟩

theorem renderGroup_error
    (fits : ∀ row ∈ before, row.length = (Statement.analyze rawBackslash sql).parameterCount)
    (wrong : row.length ≠ (Statement.analyze rawBackslash sql).parameterCount)
    (mergeable : chosen = .merged → (Statement.analyze rawBackslash sql).isMergeable = true)
    (bound : first + before.length < UInt64.size) :
    renderGroup (Statement.analyze rawBackslash sql) chosen first (before ++ row :: after) =
      .error (.arity (namedRow chosen (first + before.length))
        (Statement.analyze rawBackslash sql).parameterCount row.length) := by
  have single : (Statement.analyze rawBackslash sql).render row =
      .error (.arity 0 (Statement.analyze rawBackslash sql).parameterCount row.length) :=
    if_neg wrong
  by_cases merged : chosen = .merged
  · obtain ⟨template, found⟩ := Statement.template?_of_isMergeable (mergeable merged)
    rw [renderGroup, namedRow, if_pos merged, if_pos merged, found]
    simp only [Template.render, Statement.template_parameterCount found,
      misfit?_split fits wrong, Nat.mod_eq_of_lt bound]
  · have each := mapM_error (fun row member => Statement.render_ok (fits row member)) single
      after
    rw [renderGroup, namedRow, if_neg merged, if_neg merged, each]
    rfl

-- Groups before the wrong row are written, and the group that holds it fails, wherever it is cut.
theorem renderGroups_error (covers : groups.flatten = before ++ row :: after)
    (fits : ∀ row ∈ before, row.length = (Statement.analyze rawBackslash sql).parameterCount)
    (wrong : row.length ≠ (Statement.analyze rawBackslash sql).parameterCount)
    (mergeable : chosen = .merged → (Statement.analyze rawBackslash sql).isMergeable = true)
    (bound : first + before.length < UInt64.size) :
    renderGroups (Statement.analyze rawBackslash sql) chosen first groups =
      .error (.arity (namedRow chosen (first + before.length))
        (Statement.analyze rawBackslash sql).parameterCount row.length) := by
  induction groups generalizing first before with
  | nil => simp at covers
  | cons group groups ih =>
    rw [List.flatten_cons] at covers
    rcases List.append_eq_append_iff.mp covers with ⟨more, rfl, behind⟩ | ⟨more, rfl, behind⟩
    · -- The whole group stands before the wrong row.
      obtain ⟨early, late⟩ := List.forall_mem_append.mp fits
      obtain ⟨text, written⟩ := renderGroup_ok chosen first early
      rw [List.length_append, ← Nat.add_assoc] at bound ⊢
      rw [renderGroups, written, ih behind late bound]
      rfl
    · cases more with
      | nil =>
        obtain ⟨text, written⟩ := renderGroup_ok chosen first fits
        have rest : groups.flatten = [] ++ row :: after := behind.symm
        have reached : first + before.length + ([] : List Row).length < UInt64.size := bound
        have later := ih rest (List.forall_mem_nil _) reached
        rw [List.append_nil, renderGroups, written, later]
        rfl
      | cons found more =>
        obtain ⟨rfl, _⟩ := List.cons.inj behind
        rw [renderGroups, renderGroup_error fits wrong mergeable bound]
        rfl

theorem ofRows_split (fits : ∀ row ∈ before, row.length = statement.parameterCount)
    (wrong : row.length ≠ statement.parameterCount) (after : List Row) (options : BatchOptions) :
    ofRows statement (before ++ row :: after) options =
      .error (.arity (namedRow (Strategy.choose statement options) before.length)
        statement.parameterCount row.length) := by
  rw [ofRows, misfit?_split fits wrong]
  rfl

-- A batch is refused with this error when it is planned, and by writing its statements one
-- after another, wherever a packet limit cuts the rows.
structure Refused (statement : Statement) (rows : List Row) (options : BatchOptions)
    (error : BindError) : Prop where
  planned : ofRows statement rows options = .error error
  written : ∀ groups, Divides rows groups → rows.length ≤ UInt64.size →
    renderGroups statement (Strategy.choose statement options) 0 groups = .error error

-- The error tells the size of the first wrong row and the size that it should have. It names
-- that row if the rows are to be merged, and row zero otherwise.
theorem ofRows_misfit (rawBackslash : Bool) (sql : Bytes) (rows : List Row)
    (options : BatchOptions)
    (misfit : ∃ row ∈ rows, row.length ≠ (Statement.analyze rawBackslash sql).parameterCount) :
    ∃ index got, FirstMisfit (Statement.analyze rawBackslash sql).parameterCount rows index got ∧
      (Strategy.choose (Statement.analyze rawBackslash sql) options = .merged →
        Refused (Statement.analyze rawBackslash sql) rows options
          (.arity index (Statement.analyze rawBackslash sql).parameterCount got)) ∧
      (Strategy.choose (Statement.analyze rawBackslash sql) options ≠ .merged →
        Refused (Statement.analyze rawBackslash sql) rows options
          (.arity 0 (Statement.analyze rawBackslash sql).parameterCount got)) := by
  obtain ⟨before, row, after, rfl, fits, wrong⟩ := misfit_parts misfit
  have refused : Refused (Statement.analyze rawBackslash sql) (before ++ row :: after) options
      (.arity (namedRow (Strategy.choose (Statement.analyze rawBackslash sql) options)
        before.length) (Statement.analyze rawBackslash sql).parameterCount row.length) := by
    constructor
    · exact ofRows_split fits wrong after options
    · intro groups divides short
      have bound : 0 + before.length < UInt64.size := by
        rw [List.length_append, List.length_cons] at short
        omega
      have mergeable : Strategy.choose (Statement.analyze rawBackslash sql) options = .merged →
          (Statement.analyze rawBackslash sql).isMergeable = true := Strategy.choose_merged
      have failed := renderGroups_error divides.covers fits wrong mergeable bound
      rw [Nat.zero_add] at failed
      exact failed
  refine ⟨before.length, row.length, firstMisfit_split fits wrong, ?_, ?_⟩
  · intro merged
    rw [namedRow, if_pos merged] at refused
    exact refused
  · intro apart
    rw [namedRow, if_neg apart] at refused
    exact refused

theorem ofRows_misfit_joined :
    let statement := Statement.analyze false (Bytes.ofString "UPDATE t SET a = ?")
    let rows := [["1"], ["20"], ["3", "4"], []].map (List.map Bytes.ofString)
    let options : BatchOptions := { joinStatements := true, maxPacket := 20 }
    (∃ row ∈ rows, row.length ≠ statement.parameterCount) ∧
      ∃ index got, FirstMisfit statement.parameterCount rows index got ∧
        Refused statement rows options (.arity 0 statement.parameterCount got) := by
  have misfit : ∃ row ∈ [["1"], ["20"], ["3", "4"], []].map (List.map Bytes.ofString),
      row.length ≠ (Statement.analyze false (Bytes.ofString "UPDATE t SET a = ?")).parameterCount :=
    by decide +kernel
  obtain ⟨index, got, first, _, refused⟩ := ofRows_misfit false _ _
    { joinStatements := true, maxPacket := 20 } misfit
  exact ⟨misfit, index, got, first, refused (by decide +kernel)⟩

-- Here the second row is the wrong one, and the error names the first.
theorem ofRows_misplaced :
    let statement := Statement.analyze false (Bytes.ofString "UPDATE t SET a = ?")
    let rows := [["1"], ["2", "3"]].map (List.map Bytes.ofString)
    FirstMisfit statement.parameterCount rows 1 2 ∧
      ofRows statement rows {} = .error (.arity 0 statement.parameterCount 2) := by
  have fits : ∀ row ∈ [[Bytes.ofString "1"]], List.length row =
      (Statement.analyze false (Bytes.ofString "UPDATE t SET a = ?")).parameterCount := by
    decide +kernel
  have wrong : List.length (["2", "3"].map Bytes.ofString) ≠
      (Statement.analyze false (Bytes.ofString "UPDATE t SET a = ?")).parameterCount := by
    decide +kernel
  have apart : Strategy.choose (Statement.analyze false (Bytes.ofString "UPDATE t SET a = ?")) {} ≠
      .merged := by
    decide +kernel
  refine ⟨firstMisfit_split fits wrong, ?_⟩
  have refused := ofRows_split fits wrong [] {}
  rw [namedRow, if_neg apart] at refused
  exact refused

end BatchPlan
end InsertBatch
