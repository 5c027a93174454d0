import ClassroomCpu.Proofs.Assembly.Passes
import ClassroomCpu.Proofs.Assembly.Resolution

/-!
# What one line does

A line that succeeds in the first pass defines its label, takes the cells of
its bytes and moves the cursor; one that succeeds in the second pass records
the cells of its bytes and moves the cursor.  What cells these are, and where
the cursor goes, is said by the effect of its statement.
-/

namespace ClassroomCpu.Assembly

variable {arch : Architecture}

/-! ## Effects on places -/

/-- The cell for the next byte behind a statement with the given effect. -/
def Effect.next (effect : Effect arch) (cursor : Fin arch.memorySize) : Fin arch.memorySize :=
  match effect with
  | .origin address => address
  | .data bytes => arch.cell (cursor + bytes.length)

/-- The cells that a statement with the given effect puts bytes into. -/
def Effect.cells (effect : Effect arch) (cursor : Nat) : List (Fin arch.memorySize) :=
  match effect with
  | .origin _ => []
  | .data bytes => cellsFrom arch cursor bytes.length

theorem Effect.head?_cells {effect : Effect arch} {cursor first : Fin arch.memorySize}
    (head : (effect.cells cursor).head? = some first) : first = cursor := by
  cases effect with
  | origin address => simp [cells] at head
  | data bytes =>
      cases bytes with
      | nil => simp [cells, cellsFrom] at head
      | cons byte bytes => simpa [cells, cellsFrom] using head.symm

/-- The cells that the statement of a line puts bytes into. -/
def lineCells (scope : Scope) (arch : Architecture) (line : SourceLine) :
    List (Fin arch.memorySize) :=
  if line.statement.isEmpty then []
  else
    match statementEffect scope arch line.statement with
    | .ok effect => effect.cells scope.cursor
    | .error _ => []

theorem lineCells_of_effect {scope : Scope} {line : SourceLine} {effect : Effect arch}
    (something : line.statement.isEmpty = false)
    (given : statementEffect scope arch line.statement = .ok effect) :
    lineCells scope arch line = effect.cells scope.cursor := by
  simp [lineCells, something, given]

namespace Layout

/-- The layout once the label in front of a line is defined. -/
def withLabel (layout : Layout arch) (line : SourceLine) : Layout arch :=
  match line.label with
  | none => layout
  | some label => (layout.defineLabel label).1

/-- What is known in the first pass where the statement of a line stands. -/
def scope (layout : Layout arch) (line : SourceLine) : Scope where
  pass := .reserve
  labels := (layout.withLabel line).labels
  cursor := layout.cursor

/-- What a line that succeeds in the first pass does. -/
structure Step (line : SourceLine) (layout after : Layout arch) : Prop where
  /-- Only the label in front of the line is new. -/
  labels : after.labels = (layout.withLabel line).labels
  /-- The label is legal, new, and at the cursor. -/
  label : ∀ label, line.label = some label →
    isLabel label.toList = true ∧ layout.labels.find? label = none ∧
      after.labels = layout.labels.define label layout.cursor
  /-- The cursor moves as the statement says. -/
  cursor : (line.statement.isEmpty = true ∧ after.cursor = layout.cursor) ∨
    (line.statement.isEmpty = false ∧
      ∃ effect, statementEffect (layout.scope line) arch line.statement = .ok effect ∧
        after.cursor = effect.next layout.cursor)
  /-- The cells of the line are taken. -/
  reserved : ∀ cell, after.reserved.get cell = true ↔
    layout.reserved.get cell = true ∨ cell ∈ lineCells (layout.scope line) arch line
  /-- The cells of the line were free. -/
  free : ∀ cell ∈ lineCells (layout.scope line) arch line, layout.reserved.get cell = false

theorem defineLabel_ok {layout after : Layout arch} {label : String}
    (defined : layout.defineLabel label = (after, .ok ())) :
    isLabel label.toList = true ∧ layout.labels.find? label = none ∧
      after.labels = layout.labels.define label layout.cursor ∧
        after.cursor = layout.cursor ∧ after.reserved = layout.reserved := by
  unfold defineLabel at defined
  split at defined
  · simp [reject] at defined
  · rename_i legal
    split at defined
    · simp [reject] at defined
    · rename_i isNew
      simp only [Prod.mk.injEq, and_true] at defined
      subst defined
      exact ⟨by simpa using legal, by simpa using isNew, rfl, rfl, rfl⟩

theorem reserve_ok {layout after : Layout arch} {count : Nat}
    (taken : layout.reserve count = (after, .ok ())) :
    after.labels = layout.labels ∧
      after.cursor = arch.cell (layout.cursor + count) ∧
        (∀ cell, after.reserved.get cell = true ↔
          layout.reserved.get cell = true ∨ cell ∈ cellsFrom arch layout.cursor count) ∧
          ∀ cell ∈ cellsFrom arch layout.cursor count, layout.reserved.get cell = false := by
  unfold reserve at taken
  split at taken
  · rename_i middle reserved
    obtain ⟨same, takenAfter, freeBefore⟩ := reserveFrom_ok reserved
    simp only [Prod.mk.injEq, and_true] at taken
    subst taken
    refine ⟨?_, ?_, takenAfter, freeBefore⟩
    · rw [same]
    · rw [same]
  · rename_i failed
    exact absurd taken (failed after)

/-- A statement that succeeds leaves the labels alone. -/
theorem treatStatement_ok {layout after : Layout arch} {line : SourceLine}
    (treated : layout.treatStatement line.statement = (after, .ok ())) :
    let scope : Scope := ⟨.reserve, layout.labels, layout.cursor⟩
    after.labels = layout.labels ∧
      ((line.statement.isEmpty = true ∧ after.cursor = layout.cursor) ∨
        (line.statement.isEmpty = false ∧
          ∃ effect, statementEffect scope arch line.statement = .ok effect ∧
            after.cursor = effect.next layout.cursor)) ∧
        (∀ cell, after.reserved.get cell = true ↔
          layout.reserved.get cell = true ∨ cell ∈ lineCells scope arch line) ∧
          ∀ cell ∈ lineCells scope arch line, layout.reserved.get cell = false := by
  unfold treatStatement at treated
  unfold lineCells
  split at treated
  · rename_i nothing
    simp only [Prod.mk.injEq, and_true] at treated
    subst treated
    simp [nothing]
  · rename_i something
    split at treated
    · rename_i address given
      simp only [Prod.mk.injEq, and_true] at treated
      subst treated
      simp [something, given, Effect.next, Effect.cells]
    · rename_i bytes given
      obtain ⟨labels, cursor, takenAfter, freeBefore⟩ := reserve_ok treated
      simp only [something, given, Effect.cells]
      exact ⟨labels, .inr ⟨by simp, .data bytes, rfl, cursor⟩, takenAfter, freeBefore⟩
    · simp at treated

/-- A line that succeeds in the first pass is such a step. -/
theorem step_of_treatLine {layout after : Layout arch} {line : SourceLine}
    (treated : layout.treatLine line = (after, .ok ())) : Step line layout after := by
  unfold treatLine at treated
  split at treated
  · rename_i noLabel
    have labelled : layout.withLabel line = layout := by simp [withLabel, noLabel]
    obtain ⟨labels, cursor, takenAfter, freeBefore⟩ := treatStatement_ok treated
    refine ⟨?_, ?_, ?_, ?_, ?_⟩
    · rw [labelled]
      exact labels
    · intro label hasLabel
      simp [noLabel] at hasLabel
    · simpa only [scope, labelled] using cursor
    · simpa only [scope, labelled] using takenAfter
    · simpa only [scope, labelled] using freeBefore
  · rename_i label hasLabel
    split at treated
    · rename_i middle defined
      obtain ⟨legal, isNew, newLabels, sameCursor, sameReserved⟩ := defineLabel_ok defined
      have labelled : layout.withLabel line = middle := by simp [withLabel, hasLabel, defined]
      obtain ⟨labels, cursor, takenAfter, freeBefore⟩ := treatStatement_ok treated
      rw [sameCursor] at cursor takenAfter freeBefore
      rw [sameReserved] at takenAfter freeBefore
      refine ⟨?_, ?_, ?_, ?_, ?_⟩
      · rw [labelled]
        exact labels
      · intro other otherLabel
        obtain rfl : label = other := by simpa [hasLabel] using otherLabel
        exact ⟨legal, isNew, labels.trans newLabels⟩
      · simpa only [scope, labelled] using cursor
      · simpa only [scope, labelled] using takenAfter
      · simpa only [scope, labelled] using freeBefore
    · rename_i failed
      exact absurd treated (failed after)

/-- A step only adds to the labels. -/
theorem Step.growsTo {line : SourceLine} {layout after : Layout arch}
    (step : Step line layout after) : layout.labels.GrowsTo after.labels := by
  cases hasLabel : line.label with
  | none =>
      rw [step.labels, withLabel, hasLabel]
      exact .refl _
  | some label =>
      obtain ⟨_, isNew, labels⟩ := step.label label hasLabel
      rw [labels]
      exact LabelTable.growsTo_define isNew

theorem Step.wellFormed {line : SourceLine} {layout after : Layout arch}
    (step : Step line layout after) (wellFormed : layout.labels.WellFormed) :
    after.labels.WellFormed := by
  cases hasLabel : line.label with
  | none =>
      rw [step.labels, withLabel, hasLabel]
      exact wellFormed
  | some label =>
      obtain ⟨legal, _, labels⟩ := step.label label hasLabel
      rw [labels]
      exact LabelTable.wellFormed_define wellFormed legal

end Layout

namespace Image

/-- What a line that succeeds in the second pass does. -/
structure Step (labels : LabelTable) (number : Nat) (line : SourceLine)
    (image after : Image arch) : Prop where
  /-- The cursor moves as the statement says. -/
  cursor : (line.statement.isEmpty = true ∧ after.cursor = image.cursor) ∨
    (line.statement.isEmpty = false ∧
      ∃ effect, statementEffect ⟨.emit, labels, image.cursor⟩ arch line.statement = .ok effect ∧
        after.cursor = effect.next image.cursor)
  /-- The cells of the line are recorded for it. -/
  recorded : ∀ cell : Fin arch.memorySize, after.sourceMap.line? cell =
    if cell ∈ lineCells ⟨.emit, labels, image.cursor⟩ arch line then some number
    else image.sourceMap.line? cell

theorem step_of_treatLine {labels : LabelTable} {number : Nat} {line : SourceLine}
    {image after : Image arch} (treated : treatLine labels number line image = (after, .ok ())) :
    Step labels number line image after := by
  unfold treatLine at treated
  split at treated
  · rename_i nothing
    simp only [Prod.mk.injEq, and_true] at treated
    subst treated
    exact ⟨.inl ⟨nothing, rfl⟩, by simp [lineCells, nothing]⟩
  · rename_i something
    split at treated
    · rename_i address given
      simp only [Prod.mk.injEq, and_true] at treated
      subst treated
      exact ⟨.inr ⟨by simpa using something, .origin address, given, rfl⟩,
        by simp [lineCells, something, given, Effect.cells]⟩
    · rename_i bytes given
      simp only [Prod.mk.injEq, and_true] at treated
      subst treated
      refine ⟨.inr ⟨by simpa using something, .data bytes, given, ?_⟩, ?_⟩
      · simp [put, cursor_putFrom, Effect.next]
      · intro cell
        simp [put, line?_putFrom, lineCells, something, given, Effect.cells]
    · simp at treated

end Image

end ClassroomCpu.Assembly
