import ClassroomCpu.Proofs.Assembly.LayoutAgreement
import ClassroomCpu.Proofs.Assembly.Understanding

/-!
# Builds of one program for two architectures

A program that is built without problems for one architecture is built in the
same way for another one that understands it: line by line both builds have the
cursor, the labels, the cells and the source map in common.
-/

namespace ClassroomCpu

/-- Vectors of one length with the same elements hold the same at one position. -/
theorem get_eq_of_toList {α : Type} {size size' : Nat} {cells : Vector α size}
    {cells' : Vector α size'} (same : cells'.toList = cells.toList) {position : Fin size}
    {position' : Fin size'} (here : position'.val = position.val) :
    cells'.get position' = cells.get position := by
  have element := congrArg (fun list => list[position.val]?) same
  have inside : position.val < size' := here ▸ position'.isLt
  change cells'[position'.val] = cells[position.val]
  simpa [here, inside, position.isLt] using element

theorem toList_set_eq {α : Type} {size size' : Nat} {cells : Vector α size}
    {cells' : Vector α size'} (same : cells'.toList = cells.toList) {position : Fin size}
    {position' : Fin size'} (here : position'.val = position.val) (value : α) :
    (cells'.set position' value).toList = (cells.set position value).toList := by
  simp only [Vector.toList_set, same, here]

namespace Assembly

/-! ## Passes -/

/-- States that are related stay so in a pass that is clean for the first of them. -/
theorem passLines_related {State Other : Type} {related : State → Other → Prop}
    {treat : Nat → SourceLine → State → State × Outcome Unit}
    {treatOther : Nat → SourceLine → Other → Other × Outcome Unit}
    (follows : ∀ number line state other after, related state other →
      treat number line state = (after, .ok ()) →
        ∃ otherAfter, treatOther number line other = (otherAfter, .ok ()) ∧
          related after otherAfter)
    {state : State} {other : Other} (start : related state other) (number : Nat)
    (lines : List SourceLine) (clean : (passLines treat state number lines).Clean) :
    (passLines treatOther other number lines).Clean ∧
      related (passLines treat state number lines).state
        (passLines treatOther other number lines).state := by
  induction lines generalizing state other number with
  | nil => exact ⟨⟨rfl, rfl⟩, start⟩
  | cons line lines induction =>
      simp only [passLines] at clean ⊢
      split at clean
      · rename_i after treated
        obtain ⟨otherAfter, treatedOther, next⟩ :=
          follows number line state other after start treated
        simp only [treatedOther]
        exact induction next (number + 1) clean
      · exact absurd clean.2 (by simp)
      · exact absurd clean.1 (by simp)

variable {arch other : Architecture}

theorem ofLines_of_clean {lines : List SourceLine}
    (clean : (passLines (fun _ line layout => layout.treatLine line) (Layout.start arch) 0
      lines).Clean) :
    let first := passLines (fun _ line layout => layout.treatLine line) (Layout.start arch) 0 lines
    let second := passLines (Image.treatLine first.state.labels) (Image.start arch) 0 lines
    Build.ofLines arch lines = ⟨first.state, second.state, second.errors, second.fault⟩ := by
  dsimp only
  unfold Build.ofLines
  dsimp only
  rw [clean.1, clean.2]
  rfl

/-- Two layouts that are the same, on memories of one size. -/
structure Layout.Same (layout : Layout arch) (counterpart : Layout other) : Prop where
  cursor : counterpart.cursor.val = layout.cursor.val
  labels : counterpart.labels = layout.labels
  labelTexts : counterpart.labelTexts.toList = layout.labelTexts.toList
  reserved : counterpart.reserved.toList = layout.reserved.toList

/-- Two images that are the same, on memories of one size. -/
structure Image.Same (image : Image arch) (counterpart : Image other) : Prop where
  cursor : counterpart.cursor.val = image.cursor.val
  memory : counterpart.memory.toList = image.memory.toList
  sourceMap : counterpart.sourceMap = image.sourceMap

section Lines

variable (understands : other.Understands arch)
include understands

/-! ## The first pass -/

namespace Layout.Same

variable {layout after : Layout arch} {counterpart : Layout other}
  (same : Layout.Same layout counterpart)
include same

omit understands in
theorem defineLabel {label : String} (defined : layout.defineLabel label = (after, .ok ())) :
    ∃ counterafter, counterpart.defineLabel label = (counterafter, .ok ()) ∧
      Layout.Same after counterafter := by
  unfold Layout.defineLabel at defined ⊢
  split at defined
  · simp [reject] at defined
  · rename_i legal
    split at defined
    · simp [reject] at defined
    · rename_i fresh
      simp only [Prod.mk.injEq, and_true] at defined
      subst defined
      rw [if_neg legal, same.labels, if_neg fresh]
      have free := get_eq_of_toList same.labelTexts same.cursor
      refine ⟨_, rfl, same.cursor, ?_, ?_, same.reserved⟩
      · dsimp only
        rw [same.cursor]
      · dsimp only
        rw [free]
        split
        · exact toList_set_eq same.labelTexts same.cursor label
        · exact same.labelTexts

theorem reserveFrom {address count : Nat}
    (taken : layout.reserveFrom address count = (after, .ok ())) :
    ∃ counterafter, counterpart.reserveFrom address count = (counterafter, .ok ()) ∧
      Layout.Same after counterafter := by
  induction count generalizing layout counterpart address with
  | zero =>
      simp only [reserveFrom_zero, Prod.mk.injEq, and_true] at taken
      subst taken
      exact ⟨counterpart, rfl, same⟩
  | succ count induction =>
      have cell := understands.val_cell address
      rw [reserveFrom_succ] at taken ⊢
      rw [get_eq_of_toList same.reserved cell]
      split at taken
      · simp [reject] at taken
      · rename_i free
        rw [if_neg free]
        have next : Layout.Same
            { layout with reserved := layout.reserved.set (arch.cell address) true }
            { counterpart with reserved := counterpart.reserved.set (other.cell address) true } :=
          ⟨same.cursor, same.labels, same.labelTexts, toList_set_eq same.reserved cell true⟩
        exact induction next taken

theorem reserve {count : Nat} (taken : layout.reserve count = (after, .ok ())) :
    ∃ counterafter, counterpart.reserve count = (counterafter, .ok ()) ∧
      Layout.Same after counterafter := by
  unfold Layout.reserve at taken ⊢
  split at taken
  · rename_i between ended
    simp only [Prod.mk.injEq, and_true] at taken
    subst taken
    obtain ⟨counterbetween, counterended, next⟩ := same.reserveFrom understands ended
    rw [← same.cursor] at counterended
    rw [counterended]
    refine ⟨_, rfl, { next with cursor := ?_ }⟩
    dsimp only
    rw [next.cursor, understands.val_cell]
  · rename_i failed notEnded
    exact absurd taken (notEnded after)

theorem treatStatement {statement : String}
    (treated : layout.treatStatement statement = (after, .ok ())) :
    ∃ counterafter, counterpart.treatStatement statement = (counterafter, .ok ()) ∧
      Layout.Same after counterafter := by
  unfold Layout.treatStatement at treated ⊢
  split at treated
  · rename_i nothing
    simp only [Prod.mk.injEq, and_true] at treated
    subst treated
    exact ⟨counterpart, if_pos nothing, same⟩
  · rename_i something
    rw [if_neg something]
    have follows := understands.statementEffect ⟨.reserve, layout.labels, layout.cursor⟩ statement
    cases effect : statementEffect ⟨.reserve, layout.labels, layout.cursor⟩ arch statement with
    | error failure => simp [effect] at treated
    | ok effected =>
        obtain ⟨countereffect, counter, agrees⟩ := follows effected effect
        rw [effect] at treated
        rw [← same.labels, ← same.cursor] at counter
        rw [counter]
        cases agrees with
        | origin here =>
            simp only [Prod.mk.injEq, and_true] at treated
            subst treated
            exact ⟨_, rfl, { same with cursor := here }⟩
        | data bytes => exact same.reserve understands treated

/-- A line that the first pass accepts on one architecture it accepts on the other one. -/
theorem treatLine {line : SourceLine} (treated : layout.treatLine line = (after, .ok ())) :
    ∃ counterafter, counterpart.treatLine line = (counterafter, .ok ()) ∧
      Layout.Same after counterafter := by
  unfold Layout.treatLine at treated ⊢
  cases labelled : line.label with
  | none =>
      rw [labelled] at treated
      exact same.treatStatement understands treated
  | some label =>
      rw [labelled] at treated
      dsimp only at treated ⊢
      split at treated
      · rename_i between defined
        obtain ⟨counterbetween, counterdefined, next⟩ := same.defineLabel defined
        rw [counterdefined]
        exact next.treatStatement understands treated
      · rename_i failed notDefined
        exact absurd treated (notDefined after)

end Layout.Same

/-! ## The second pass -/

namespace Image.Same

variable {image : Image arch} {counterpart : Image other}
  (same : Image.Same image counterpart)
include same

theorem putFrom (line address : Nat) (bytes : List UInt8) :
    Image.Same (image.putFrom line address bytes) (counterpart.putFrom line address bytes) := by
  induction bytes generalizing image counterpart address with
  | nil => exact same
  | cons byte bytes induction =>
      have cell := understands.val_cell address
      rw [putFrom_cons, putFrom_cons]
      apply induction
      refine ⟨same.cursor, toList_set_eq same.memory cell byte, ?_⟩
      dsimp only
      rw [same.sourceMap, cell]

theorem put (line : Nat) (bytes : List UInt8) :
    Image.Same (image.put line bytes) (counterpart.put line bytes) := by
  unfold Image.put
  have next := same.putFrom understands line image.cursor bytes
  rw [same.cursor]
  refine { next with cursor := ?_ }
  dsimp only
  rw [next.cursor, understands.val_cell]

/-- A line that the second pass accepts on one architecture it accepts on the other one. -/
theorem treatLine {labels : LabelTable} {number : Nat} {line : SourceLine} {after : Image arch}
    (treated : Image.treatLine labels number line image = (after, .ok ())) :
    ∃ counterafter, Image.treatLine labels number line counterpart = (counterafter, .ok ()) ∧
      Image.Same after counterafter := by
  unfold Image.treatLine at treated ⊢
  split at treated
  · rename_i nothing
    simp only [Prod.mk.injEq, and_true] at treated
    subst treated
    exact ⟨counterpart, if_pos nothing, same⟩
  · rename_i something
    rw [if_neg something]
    have follows := understands.statementEffect ⟨.emit, labels, image.cursor⟩ line.statement
    cases effect : statementEffect ⟨.emit, labels, image.cursor⟩ arch line.statement with
    | error failure => simp [effect] at treated
    | ok effected =>
        obtain ⟨countereffect, counter, agrees⟩ := follows effected effect
        rw [effect] at treated
        rw [← same.cursor] at counter
        rw [counter]
        cases agrees with
        | origin here =>
            simp only [Prod.mk.injEq, and_true] at treated
            subst treated
            exact ⟨_, rfl, { same with cursor := here }⟩
        | data bytes =>
            simp only [Prod.mk.injEq, and_true] at treated
            subst treated
            exact ⟨_, rfl, same.put understands number bytes⟩

end Image.Same

/-! ## Builds -/

theorem firstPass_same {lines : List SourceLine}
    (clean : (passLines (fun _ line layout => layout.treatLine line) (Layout.start arch) 0
      lines).Clean) :
    let pass := passLines (fun _ line layout => layout.treatLine line) (Layout.start other) 0 lines
    pass.Clean ∧ Layout.Same
      (passLines (fun _ line layout => layout.treatLine line) (Layout.start arch) 0 lines).state
      pass.state := by
  refine passLines_related ?_ ?_ 0 lines clean
  · intro number line layout counterpart after same treated
    exact same.treatLine understands treated
  · refine ⟨understands.val_cell 0, rfl, ?_, ?_⟩ <;>
      simp [Layout.start, understands.memorySize]

theorem secondPass_same {lines : List SourceLine} {labels : LabelTable}
    (clean : (passLines (Image.treatLine labels) (Image.start arch) 0 lines).Clean) :
    let pass := passLines (Image.treatLine labels) (Image.start other) 0 lines
    pass.Clean ∧ Image.Same
      (passLines (Image.treatLine labels) (Image.start arch) 0 lines).state pass.state := by
  refine passLines_related ?_ ?_ 0 lines clean
  · intro number line image counterpart after same treated
    exact same.treatLine understands treated
  · refine ⟨understands.val_cell 0, ?_, rfl⟩
    simp [Image.start, understands.memorySize]

/-- What is built for an architecture is built in the same way for one that understands it. -/
theorem succeeded_ofLines {lines : List SourceLine}
    (succeeded : (Build.ofLines arch lines).succeeded = true) :
    (Build.ofLines other lines).succeeded = true ∧
      Layout.Same (Build.ofLines arch lines).layout (Build.ofLines other lines).layout ∧
      Image.Same (Build.ofLines arch lines).image (Build.ofLines other lines).image := by
  obtain ⟨cleanFirst, cleanSecond, layout, image⟩ := clean_of_succeeded succeeded
  rw [layoutBefore, stateBefore_length] at layout
  rw [imageBefore, stateBefore_length] at image
  rw [Build.labels] at cleanSecond image
  obtain ⟨otherFirst, sameLayout⟩ := firstPass_same understands cleanFirst
  obtain ⟨otherSecond, sameImage⟩ := secondPass_same understands cleanSecond
  rw [layout, ← sameLayout.labels] at sameImage otherSecond image
  rw [ofLines_of_clean otherFirst, layout, image]
  exact ⟨by simp [Build.succeeded, otherSecond.1, otherSecond.2], sameLayout, sameImage⟩

end Lines

end Assembly

end ClassroomCpu
