import InsertBatch.Batch.Plan
import InsertBatch.Proofs.Packing
import InsertBatch.Proofs.TemplateSoundness

namespace InsertBatch

theorem misfit?_none (expected : Nat) (rows : List Row) :
    misfit? expected rows = none ↔ ∀ row ∈ rows, row.length = expected := by
  simp only [misfit?, Option.map_eq_none_iff, List.find?_eq_none, bne_iff_ne, Decidable.not_not]
  constructor
  · intro fits row member
    obtain ⟨index, bound, rfl⟩ := List.getElem_of_mem member
    exact fits (rows[index], index) (List.mem_zipIdx_iff_getElem?.mpr (by simp [bound]))
  · rintro fits ⟨row, index⟩ member
    exact fits row (List.fst_mem_of_mem_zipIdx member)

theorem mapM_ok {run : α → Except ε β} {result : α → β} {items : List α}
    (each : ∀ item ∈ items, run item = .ok (result item)) :
    items.mapM run = .ok (items.map result) := by
  induction items with
  | nil => rfl
  | cons item items ih =>
    obtain ⟨first, rest⟩ := List.forall_mem_cons.mp each
    rw [List.mapM_cons, first, ih rest]
    rfl

theorem Bytes.join_cons (separator text : Bytes) (texts : List Bytes) :
    Bytes.join separator (text :: texts) = text ++ texts.flatMap (separator ++ ·) := by
  induction texts generalizing text with
  | nil => simp [Bytes.join]
  | cons next texts ih =>
    have later := ih next
    unfold Bytes.join at later ⊢
    rw [List.intersperse_cons_cons, List.flatten_cons, List.flatten_cons, later,
      List.flatMap_cons, List.append_assoc]

theorem Bytes.flatMap_growth (separator : UInt8) (render : α → Bytes) (group : List α) :
    ((group.map render).flatMap ([separator] ++ ·)).length =
      Packing.growth (fun item => (render item).length) group := by
  induction group with
  | nil => rfl
  | cons item group ih =>
    rw [List.map_cons, List.flatMap_cons, List.length_append, ih, Packing.growth,
      List.length_append, List.length_singleton]

-- A joined text is as long as a group of its parts costs.
theorem Bytes.join_length (separator : UInt8) (render : α → Bytes) (fixed : Nat)
    {group : List α} (present : group ≠ []) :
    fixed + (Bytes.join [separator] (group.map render)).length =
      Packing.cost fixed (fun item => (render item).length) group := by
  cases group with
  | nil => exact absurd rfl present
  | cons item group =>
    rw [List.map_cons, Bytes.join_cons, List.length_append, Bytes.flatMap_growth, Packing.cost]
    omega

namespace Statement
variable {rawBackslash : Bool} {sql : Bytes} {row : Row} {statement : Statement}
  {template : Template}

theorem analyze_segments (rawBackslash : Bool) (sql : Bytes) :
    (analyze rawBackslash sql).segments =
      Segment.cutFrom 0 sql sql.length (analyze rawBackslash sql).marks := rfl

theorem render_ok (fits : row.length = statement.parameterCount) :
    statement.render row = .ok (Segment.fill statement.segments row) := if_pos fits

-- A row is the same text whether its statement or the template writes it.
theorem render_template (found : (analyze rawBackslash sql).template? = some template)
    (fits : row.length = (analyze rawBackslash sql).parameterCount) :
    (analyze rawBackslash sql).render row =
      .ok (template.lead ++ Segment.fill template.tuple row ++ template.trail) := by
  obtain ⟨tuple, text, _, _, marks, shape⟩ := template_parts found
  have increase := Lexeme.placesOf_increase Ascii.question rawBackslash .plain
    template.lead.length tuple
  have within : ∀ mark ∈ (analyze rawBackslash sql).marks,
      template.lead.length ≤ mark ∧ mark < template.lead.length + tuple.length := by
    intro mark member
    rw [marks] at member
    exact Lexeme.placesOf_bounds member
  rw [← marks] at increase
  have whole : sql = template.lead ++ (tuple ++ template.trail) := by
    rw [← List.append_assoc]
    exact text
  have reach : sql.length = template.lead.length + tuple.length + template.trail.length := by
    rw [text, List.length_append, List.length_append]
  have behind : ∀ mark ∈ (analyze rawBackslash sql).marks, 0 + template.lead.length ≤ mark := by
    intro mark member
    have bounds := within mark member
    omega
  have front : Segment.fill (Segment.cutFrom 0 (template.lead ++ (tuple ++ template.trail))
      sql.length (analyze rawBackslash sql).marks) row = _ :=
    Segment.fill_cutFrom_lead _ _ (by omega) behind row
  have back := Segment.fill_cutFrom_trail template.trail increase within row
  rw [Nat.zero_add, reach, back, ← whole, ← reach, ← shape] at front
  rw [render_ok fits, analyze_segments, front, List.append_assoc]

theorem render_fillRows (found : (analyze rawBackslash sql).template? = some template)
    (fits : row.length = (analyze rawBackslash sql).parameterCount) :
    (analyze rawBackslash sql).render row = .ok (template.fillRows [row]) := by
  rw [render_template found fits, Template.fillRows, List.map_singleton, Bytes.join_cons,
    List.flatMap_nil, List.append_nil]

end Statement

namespace Strategy

theorem choose_merged {statement : Statement} {options : BatchOptions}
    (chosen : choose statement options = .merged) : statement.isMergeable = true := by
  unfold choose at chosen
  split at chosen
  · rename_i both
    exact (Bool.and_eq_true_iff.mp both).2
  · split at chosen <;> cases chosen

end Strategy

namespace BatchPlan
open Packing (Divides Least)

-- What the statements of a plan carry: every row once and in order, each statement
-- that holds several of them in the form of its strategy.
inductive Carries (statement : Statement) : Strategy → List Row → List Bytes → Prop
  | separate (each : rows.mapM statement.render = .ok sent) :
      Carries statement .separate rows sent
  | joined (divides : Divides rows groups)
      (each : groups.mapM (fun group =>
        (group.mapM statement.render).map (Bytes.join [Ascii.semicolon])) = .ok sent) :
      Carries statement .joined rows sent
  | merged (found : statement.template? = some template) (divides : Divides rows groups)
      (lone : ∀ row, row.length = statement.parameterCount → statement.render row =
        .ok (template.lead ++ Segment.fill template.tuple row ++ template.trail))
      (each : sent = groups.map fun group => template.lead ++
        Bytes.join [Ascii.comma] (group.map (Segment.fill template.tuple)) ++ template.trail) :
      Carries statement .merged rows sent

variable {rawBackslash : Bool} {sql : Bytes} {statement : Statement} {template : Template}
  {rows : List Row} {options : BatchOptions} {chosen : Strategy} {sent : List Bytes}

-- The text that sends a group of rows as executions of their own.
def joinRows (statement : Statement) (group : List Row) : Bytes :=
  Bytes.join [Ascii.semicolon] (texts statement group)

theorem ofRows_isOk (statement : Statement) (rows : List Row) (options : BatchOptions) :
    (∃ plan, ofRows statement rows options = .ok plan) ↔
      ∀ row ∈ rows, row.length = statement.parameterCount := by
  rw [← misfit?_none]
  unfold ofRows
  cases misfit? statement.parameterCount rows with
  | none => simp
  | some found => simp

theorem ofRows_ok (fits : ∀ row ∈ rows, row.length = statement.parameterCount) :
    ofRows statement rows options = .ok ⟨Strategy.choose statement options,
      statementsFor statement rows options.maxPacket (Strategy.choose statement options)⟩ := by
  rw [ofRows, (misfit?_none _ _).mpr fits]

theorem joinTexts_texts (statement : Statement) (limit : Nat) (rows : List Row) :
    joinTexts limit (texts statement rows) =
      (Packing.pack 0 limit (fun row => (Segment.fill statement.segments row).length) rows).map
        (joinRows statement) := by
  rw [joinTexts, texts, Packing.pack_map, List.map_map]
  rfl

theorem Carries.empty (carries : Carries statement chosen [] sent) : sent = [] := by
  cases carries with
  | separate each => exact (Except.ok.inj each).symm
  | joined divides each =>
    rw [divides.nil] at each
    exact (Except.ok.inj each).symm
  | merged found divides lone each =>
    rw [divides.nil] at each
    exact each

theorem mapM_render (fits : ∀ row ∈ rows, row.length = statement.parameterCount) :
    rows.mapM statement.render = .ok (texts statement rows) :=
  mapM_ok fun row member => Statement.render_ok (fits row member)

theorem statementsFor_carries (rawBackslash : Bool) (sql : Bytes)
    (fits : ∀ row ∈ rows, row.length = (Statement.analyze rawBackslash sql).parameterCount)
    (options : BatchOptions) :
    Carries (Statement.analyze rawBackslash sql)
      (Strategy.choose (Statement.analyze rawBackslash sql) options) rows
      (statementsFor (Statement.analyze rawBackslash sql) rows options.maxPacket
        (Strategy.choose (Statement.analyze rawBackslash sql) options)) := by
  cases chosen : Strategy.choose (Statement.analyze rawBackslash sql) options with
  | merged =>
    obtain ⟨template, found⟩ :=
      Statement.template?_of_isMergeable (Strategy.choose_merged chosen)
    rw [statementsFor, found]
    exact .merged found (Packing.pack_divides _ _ _ _)
      (fun row fits => Statement.render_template found fits) rfl
  | joined =>
    have divides := Packing.pack_divides 0 options.maxPacket
      (fun row => (Segment.fill (Statement.analyze rawBackslash sql).segments row).length) rows
    rw [statementsFor, joinTexts_texts]
    refine .joined divides (mapM_ok fun group member => ?_)
    rw [mapM_render fun row inside => fits row (divides.mem member inside)]
    rfl
  | separate => exact .separate (mapM_render fits)

-- A plan exists exactly when every row has the size of the statement, and then it
-- carries every row.
theorem ofRows_carries (rawBackslash : Bool) (sql : Bytes) (rows : List Row)
    (options : BatchOptions) :
    ((∃ plan, ofRows (Statement.analyze rawBackslash sql) rows options = .ok plan) ↔
        ∀ row ∈ rows, row.length = (Statement.analyze rawBackslash sql).parameterCount) ∧
      ∀ plan, ofRows (Statement.analyze rawBackslash sql) rows options = .ok plan →
        plan.strategy = Strategy.choose (Statement.analyze rawBackslash sql) options ∧
          Carries (Statement.analyze rawBackslash sql) plan.strategy rows plan.statements ∧
          (rows = [] → plan.statements = []) := by
  refine ⟨ofRows_isOk _ _ _, fun plan made => ?_⟩
  have fits := (ofRows_isOk _ _ _).mp ⟨plan, made⟩
  have carries := statementsFor_carries rawBackslash sql fits options
  rw [ofRows_ok fits, Except.ok.injEq] at made
  subst made
  refine ⟨rfl, carries, ?_⟩
  rintro rfl
  exact carries.empty

-- Announced lengths are real ones: merging and joining both pack by the size of the
-- text they generate.
theorem fillRows_cost {group : List Row} (present : group ≠ [])
    (fits : ∀ row ∈ group, row.length = template.parameterCount) :
    (template.fillRows group).length =
      Packing.cost template.fixedLength template.tupleLength group := by
  have lengths : ∀ row ∈ group,
      (Segment.fill template.tuple row).length = template.tupleLength row :=
    fun row member => Segment.fill_length (fits row member)
  have joined := Bytes.join_length Ascii.comma (Segment.fill template.tuple) template.fixedLength
    present
  have same : Packing.cost template.fixedLength
      (fun row => (Segment.fill template.tuple row).length) group =
        Packing.cost template.fixedLength template.tupleLength group :=
    Packing.cost_congr lengths
  rw [← same, ← joined, Template.fillRows, List.length_append, List.length_append,
    Template.fixedLength]
  omega

theorem mergeRows_least (limit : Nat)
    (fits : ∀ row ∈ rows, row.length = template.parameterCount) :
    Least (fun group => (template.fillRows group).length) limit rows
      (Packing.pack template.fixedLength limit template.tupleLength rows) := by
  refine (Packing.pack_least _ _ _ _).congr fun group present inside => ?_
  exact fillRows_cost present fun row member => fits row (inside row member)

theorem joinRows_least (statement : Statement) (limit : Nat) (rows : List Row) :
    Least (fun group => (joinRows statement group).length) limit rows
      (Packing.pack 0 limit (fun row => (Segment.fill statement.segments row).length) rows) := by
  refine (Packing.pack_least _ _ _ _).congr fun group present _ => ?_
  rw [← Bytes.join_length Ascii.semicolon (Segment.fill statement.segments) 0 present, Nat.zero_add]
  rfl

-- Merged or joined, a statement with several rows stays within the packet limit, and
-- no other cutting of the rows that keeps to it sends fewer statements.
theorem ofRows_least (rawBackslash : Bool) (sql : Bytes) (rows : List Row)
    (options : BatchOptions)
    (fits : ∀ row ∈ rows, row.length = (Statement.analyze rawBackslash sql).parameterCount) :
    (Strategy.choose (Statement.analyze rawBackslash sql) options = .merged →
      ∃ template groups, (Statement.analyze rawBackslash sql).template? = some template ∧
        ofRows (Statement.analyze rawBackslash sql) rows options =
          .ok ⟨.merged, groups.map template.fillRows⟩ ∧
        Least (fun group => (template.fillRows group).length) options.maxPacket rows groups) ∧
    (Strategy.choose (Statement.analyze rawBackslash sql) options = .joined →
      ∃ groups, ofRows (Statement.analyze rawBackslash sql) rows options =
          .ok ⟨.joined, groups.map (joinRows (Statement.analyze rawBackslash sql))⟩ ∧
        Least (fun group => (joinRows (Statement.analyze rawBackslash sql) group).length)
          options.maxPacket rows groups) := by
  refine ⟨fun chosen => ?_, fun chosen => ?_⟩
  · obtain ⟨template, found⟩ :=
      Statement.template?_of_isMergeable (Strategy.choose_merged chosen)
    refine ⟨template, _, found, ?_, mergeRows_least _ ?_⟩
    · rw [ofRows_ok fits, chosen, statementsFor, found]
      rfl
    · rw [Statement.template_parameterCount found]
      exact fits
  · refine ⟨_, ?_, joinRows_least _ _ _⟩
    rw [ofRows_ok fits, chosen, statementsFor, joinTexts_texts]

theorem ofRows_least_three :
    let statement := Statement.analyze false (Bytes.ofString "INSERT INTO t VALUES (?)")
    let rows := [["1"], ["20"], ["3"]].map (List.map Bytes.ofString)
    ∃ template groups, statement.template? = some template ∧
      ofRows statement rows { maxPacket := 29 } = .ok ⟨.merged, groups.map template.fillRows⟩ ∧
      Least (fun group => (template.fillRows group).length) 29 rows groups :=
  (ofRows_least false _ _ { maxPacket := 29 } (by decide +kernel)).1 (by decide +kernel)

end BatchPlan
end InsertBatch
