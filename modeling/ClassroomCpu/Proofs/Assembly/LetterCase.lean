import ClassroomCpu.Proofs.Assembly.History
import ClassroomCpu.Proofs.Assembly.StatementCase

/-!
# Letter case

Two programs without quotes that differ in the case of letters at most are built
alike: both are built like the program in lower case.  Only what is kept or
reported as it was written differs.
-/

namespace ClassroomCpu.Assembly

/-! ## Labels -/

theorem isLabel_map_toLower (text : List Char) :
    isLabel (text.map Char.toLower) = isLabel text := by
  have starts (c : Char) : isLabelStart c.toLower = isLabelStart c :=
    Text.toLower_class (by decide) c
  have belongs (c : Char) : isLabelChar c.toLower = isLabelChar c :=
    Text.toLower_class (by decide) c
  cases text with
  | nil => rfl
  | cons c text =>
      simp only [List.map_cons, isLabel, starts, List.all_map, Function.comp_def, belongs]

theorem LabelTable.define_lowercase (labels : LabelTable) (name : String) (address : Nat) :
    labels.define (Text.lowercase name) address = labels.define name address := by
  rw [define, Text.uppercase_lowercase, define]

/-! ## The first pass -/

variable {arch : Architecture}

namespace Layout

/-- A layout with the labels of its cells in lower case. -/
def lower (layout : Layout arch) : Layout arch :=
  { layout with labelTexts := layout.labelTexts.map Text.lowercase }

/-- What is done in lower case to a layout in lower case gives the layout in lower case. -/
def FollowsLower (treated other : Layout arch × Outcome Unit) : Prop :=
  other.1 = treated.1.lower ∧ Outcome.Alike Problem.code Eq treated.2 other.2

variable (layout : Layout arch)

theorem lower_start : (start arch).lower = start arch := by
  simp [lower, start, Text.lowercase]

theorem follows_defineLabel (label : String) :
    FollowsLower (layout.defineLabel label) (layout.lower.defineLabel (Text.lowercase label)) := by
  have find : layout.lower.labels.find? (Text.lowercase label) = layout.labels.find? label :=
    LabelTable.find?_lowercase layout.labels label
  have shown : layout.lower.labelTexts.get layout.cursor =
      Text.lowercase (layout.labelTexts.get layout.cursor) :=
    Vector.getElem_map Text.lowercase layout.cursor.isLt
  have texts : (if (layout.lower.labelTexts.get layout.cursor).isEmpty then
        layout.lower.labelTexts.set layout.cursor (Text.lowercase label)
      else layout.lower.labelTexts) =
      (if (layout.labelTexts.get layout.cursor).isEmpty then
        layout.labelTexts.set layout.cursor label
      else layout.labelTexts).map Text.lowercase := by
    rw [shown, Text.isEmpty_lowercase]
    split
    · exact (Vector.map_set ..).symm
    · rfl
  unfold defineLabel
  rw [Text.toList_lowercase, isLabel_map_toLower, find]
  split
  · exact ⟨rfl, .problem rfl⟩
  · split
    · exact ⟨rfl, .problem rfl⟩
    · have defined := layout.labels.define_lowercase label layout.cursor
      exact ⟨congrArg₂ (fun labels labelTexts => { layout with labels, labelTexts }) defined texts,
        .ok rfl⟩

theorem lower_reserveFrom (address count : Nat) :
    layout.lower.reserveFrom address count =
      ((layout.reserveFrom address count).1.lower, (layout.reserveFrom address count).2) := by
  induction count generalizing layout address with
  | zero => rfl
  | succ count induction =>
      rw [reserveFrom_succ, reserveFrom_succ]
      have same : layout.lower.reserved = layout.reserved := rfl
      rw [same]
      split
      · rfl
      · exact induction { layout with
            reserved := layout.reserved.set (arch.cell address) true (arch.cell address).isLt }
          (address + 1)

theorem follows_reserve (count : Nat) :
    FollowsLower (layout.reserve count) (layout.lower.reserve count) := by
  have taken := layout.lower_reserveFrom layout.cursor count
  unfold reserve
  have same : layout.lower.cursor = layout.cursor := rfl
  rw [same, taken]
  rcases layout.reserveFrom layout.cursor count with ⟨after, _ | ⟨⟩⟩
  · exact ⟨rfl, .refl _⟩
  · exact ⟨rfl, .ok rfl⟩

theorem follows_treatStatement {statement : String} (unquoted : '\'' ∉ statement.toList) :
    FollowsLower (layout.treatStatement statement)
      (layout.lower.treatStatement (Text.lowercase statement)) := by
  have same := alike_statementEffect ⟨.reserve, layout.labels, layout.cursor⟩ arch unquoted
  unfold treatStatement
  rw [Text.isEmpty_lowercase]
  split
  · exact ⟨rfl, .ok rfl⟩
  · change Outcome.Alike _ _ _ (statementEffect ⟨.reserve, layout.lower.labels,
      layout.lower.cursor⟩ arch (Text.lowercase statement)) at same
    rcases same.cases_eq with
      ⟨effect, here, there⟩ | ⟨problem, other, here, there, same⟩ | ⟨fault, here, there⟩
    · rw [here, there]
      cases effect with
      | origin address => exact ⟨rfl, .ok rfl⟩
      | data bytes => exact layout.follows_reserve bytes.length
    · rw [here, there]
      exact ⟨rfl, .problem same⟩
    · rw [here, there]
      exact ⟨rfl, .fault fault⟩

theorem follows_treatLine {line : SourceLine} (unquoted : '\'' ∉ line.statement.toList) :
    FollowsLower (layout.treatLine line) (layout.lower.treatLine line.lower) := by
  have statement (layout : Layout arch) := layout.follows_treatStatement unquoted
  unfold treatLine SourceLine.lower
  cases line.label with
  | none => exact statement layout
  | some label =>
      obtain ⟨next, outcomes⟩ := layout.follows_defineLabel label
      rcases defined : layout.defineLabel label with ⟨after, outcome⟩
      rcases definedLower : layout.lower.defineLabel (Text.lowercase label) with
        ⟨afterLower, outcomeLower⟩
      rw [defined, definedLower] at next outcomes
      obtain rfl : afterLower = after.lower := next
      simp only [Option.map_some, defined, definedLower]
      cases outcomes with
      | ok same => exact statement after
      | problem same => exact ⟨rfl, .problem same⟩
      | fault fault => exact ⟨rfl, .fault fault⟩

end Layout

/-! ## The second pass -/

/-- A line of the second pass does the same in lower case. -/
theorem Image.alike_treatLine {line : SourceLine} (unquoted : '\'' ∉ line.statement.toList)
    (labels : LabelTable) (number : Nat) (image : Image arch) :
    (Image.treatLine labels number line image).1 =
        (Image.treatLine labels number line.lower image).1 ∧
      Outcome.Alike Problem.code Eq (Image.treatLine labels number line image).2
        (Image.treatLine labels number line.lower image).2 := by
  have same := alike_statementEffect ⟨.emit, labels, image.cursor⟩ arch unquoted
  unfold Image.treatLine SourceLine.lower
  simp only [Text.isEmpty_lowercase]
  split
  · exact ⟨rfl, .ok rfl⟩
  · rcases same.cases_eq with
      ⟨effect, here, there⟩ | ⟨problem, other, here, there, same⟩ | ⟨fault, here, there⟩
    · rw [here, there]
      cases effect <;> exact ⟨rfl, .ok rfl⟩
    · rw [here, there]
      exact ⟨rfl, .problem same⟩
    · rw [here, there]
      exact ⟨rfl, .fault fault⟩

/-! ## Builds -/

/-- A program without quotes is built as in lower case. -/
theorem Build.alike_lowercase {source : String} (unquoted : '\'' ∉ source.toList) :
    (ofSource arch source).Alike Problem.code id (fun layout other => other = layout.lower) Eq
      (ofSource arch (Text.lowercase source)) := by
  have aligned := aligned_map SourceLine.lower (SourceLine.ofSource source) 0
  have lines := fun line member => @SourceLine.unquoted_of_mem_ofSource source unquoted line member
  rw [ofSource, ofSource, SourceLine.ofSource_lowercase unquoted]
  refine Build.alike_ofLines ?_ rfl ?_ fun labels => ?_
  · rintro layout _ rfl
    rfl
  · refine passLines_alike (fun _ layout => layout.treatLine_blank) aligned ?_
      Layout.lower_start.symm
    rintro line member number layout _ rfl
    exact layout.follows_treatLine (lines line member)
  · refine passLines_alike (Image.treatLine_blank labels) aligned ?_ rfl
    rintro line member number image _ rfl
    exact Image.alike_treatLine (lines line member) labels number image

namespace Assembler

variable {before earlier : Architecture}

/--
Programs without quotes that differ in the case of letters at most have problems
of the same codes on the same lines, the same labels with the same addresses and
the same source map, and without problems they leave the same memory.
-/
theorem assemble_sameLetters (known : arch ∈ Catalog.machines) (assembler : Assembler before)
    (other : Assembler earlier) (machine otherMachine : Machine arch) {source rewritten : String}
    (letters : Text.sameLetters source rewritten = true) (unquoted : '\'' ∉ source.toList) :
    let built := assembler.assemble machine source
    let rebuilt := other.assemble otherMachine rewritten
    built.fault = none ∧ rebuilt.fault = none ∧
      rebuilt.errors.map (fun error => (error.line, error.problem.code)) =
        built.errors.map (fun error => (error.line, error.problem.code)) ∧
      rebuilt.assembler.labels = built.assembler.labels ∧
      rebuilt.assembler.labelTexts.map Text.lowercase =
        built.assembler.labelTexts.map Text.lowercase ∧
      rebuilt.assembler.sourceMap = built.assembler.sourceMap ∧
      (built.errors = [] → rebuilt.errors = [] ∧
        rebuilt.machine.memory = built.machine.memory) := by
  intro built rebuilt
  have lowered := Text.sameLetters_iff.mp letters
  have unquotedToo : '\'' ∉ rewritten.toList :=
    mt (Text.mem_iff_of_sameLetters (by decide) letters).mpr unquoted
  -- Both programs are built like the one in lower case.
  have alike := @Build.alike_lowercase arch source unquoted
  have alikeToo := @Build.alike_lowercase arch rewritten unquotedToo
  rw [← lowered] at alikeToo
  have image := alikeToo.image.trans alike.image.symm
  have layout := alikeToo.layout.symm.trans alike.layout
  have noFault := fault_assemble assembler machine source known
  have noFaultToo := fault_assemble other otherMachine rewritten known
  obtain ⟨errors, -, holds, -⟩ := assembler.assemble_eq_build machine source
  obtain ⟨errorsToo, -, holdsToo, -⟩ := other.assemble_eq_build otherMachine rewritten
  have sameErrors : rebuilt.errors.map (fun error => (error.line, error.problem.code)) =
      built.errors.map fun error => (error.line, error.problem.code) := by
    rw [errors, errorsToo]
    exact alikeToo.errors.symm.trans alike.errors
  refine ⟨noFault, noFaultToo, sameErrors, ?_, ?_, ?_, fun noErrors => ?_⟩
  · rw [holdsToo.labels, holds.labels]
    have labels := congrArg Layout.labels layout
    exact labels
  · rw [holdsToo.labelTexts, holds.labelTexts]
    have labelTexts := congrArg Layout.labelTexts layout
    exact labelTexts
  · rw [holdsToo.sourceMap, holds.sourceMap]
    exact congrArg Image.sourceMap image
  · rw [noErrors, List.map_nil, List.map_eq_nil_iff] at sameErrors
    refine ⟨sameErrors, ?_⟩
    rw [machine_assemble _ _ _ sameErrors noFaultToo, machine_assemble _ _ _ noErrors noFault,
      memory_commit _ _ (Machine.reachesStack arch known),
      memory_commit _ _ (Machine.reachesStack arch known), holdsToo.memory, holds.memory]
    exact congrArg Image.memory image

/-- Ahmes runs the same program whichever way the letters of its names are written. -/
theorem assemble_sameLetters_mixed :
    let assembler := Assembler.new Catalog.ahmes
    let machine := Machine.new Catalog.ahmes
    let source := "Loop: lda hfF ; wait\nsub LOOP+1\njNz loop"
    let rewritten := "lOOP: LDA Hff ; WAIT\nSub loop+1\nJnZ Loop"
    Text.sameLetters source rewritten = true ∧ '\'' ∉ source.toList ∧
      (assembler.assemble machine source).errors = [] ∧
      (assembler.assemble machine rewritten).machine.memory =
        (assembler.assemble machine source).machine.memory := by
  intro assembler machine source rewritten
  have member : Catalog.ahmes ∈ Catalog.machines := by simp [Catalog.machines]
  have letters : Text.sameLetters source rewritten = true := by decide +kernel
  have unquoted : '\'' ∉ source.toList := by decide +kernel
  have noErrors : (assembler.assemble machine source).errors = [] := by decide +kernel
  obtain ⟨-, -, -, -, -, -, onSuccess⟩ := assemble_sameLetters member assembler assembler machine
    machine letters unquoted
  exact ⟨letters, unquoted, noErrors, (onSuccess noErrors).2⟩

end Assembler

end ClassroomCpu.Assembly
