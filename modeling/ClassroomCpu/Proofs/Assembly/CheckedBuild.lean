import ClassroomCpu.Assembly.Assembler
import ClassroomCpu.Proofs.Assembly.CheckedStatement
import ClassroomCpu.Proofs.Assembly.History
import ClassroomCpu.Proofs.Event.Snapshot

/-!
# Builds with checks

The tables of an assembler are lists here, and its cursor is a number.  Every
index into a table is checked to be one of the table, and in front of and behind
every line of both passes the cursor is checked to be in memory, also where the
line has a problem.  On the machines of the catalog no check traps, whatever the
tables held before, and the build is the right one.
-/

namespace ClassroomCpu.Assembly

/-- The tables of an assembler as lists, with any number as the cursor. -/
structure PlainTables where
  /-- The address of the next byte. -/
  cursor : Nat
  labels : LabelTable
  /-- The first label of each cell as it was written; empty if there is none. -/
  labelTexts : List String
  /-- The cells that a line has taken. -/
  reserved : List Bool
  memory : List UInt8
  sourceMap : SourceMap

namespace SourceLine

/-- The numbers that the line writes are not too large. -/
def Small (line : SourceLine) : Prop :=
  ∀ value ∈ line.literals, value.natAbs ≤ literalLimit

theorem Small.tokens {line : SourceLine} (small : line.Small) (tokens : List Token)
    (lexed : Token.lex line.statement.toList = .ok tokens) :
    ∀ token ∈ tokens, ∀ value ∈ token.literals, value.natAbs ≤ literalLimit := by
  intro token member value written
  apply small value
  rw [literals, lexed]
  exact List.mem_flatMap.mpr ⟨token, member, written⟩

end SourceLine

/-! ## Labels in memory -/

namespace Layout

variable {arch : Architecture}

theorem labels_reserveFrom (layout : Layout arch) (address count : Nat) :
    (layout.reserveFrom address count).1.labels = layout.labels := by
  induction count generalizing layout address with
  | zero => rfl
  | succ count induction =>
      rw [reserveFrom_succ]
      split
      · rfl
      · exact induction _ _

theorem labels_reserve (layout : Layout arch) (count : Nat) :
    (layout.reserve count).1.labels = layout.labels := by
  have kept := labels_reserveFrom layout layout.cursor count
  unfold reserve
  split
  · rename_i after taken
    rwa [taken] at kept
  · exact kept

theorem labels_treatStatement (layout : Layout arch) (statement : String) :
    (layout.treatStatement statement).1.labels = layout.labels := by
  unfold treatStatement
  split
  · rfl
  · split
    · rfl
    · exact labels_reserve layout _
    · rfl

end Layout

namespace Checked.Below

variable {arch : Architecture}

theorem defineLabel (layout : Layout arch) (below : Below layout.labels arch.memorySize)
    (label : String) : Below (layout.defineLabel label).1.labels arch.memorySize := by
  unfold Layout.defineLabel
  split
  · exact below
  · split
    · exact below
    · exact below.define layout.cursor.isLt

/-- Whatever becomes of a line, its label is in memory. -/
theorem treatLine {assembler : Assembler arch} (below : Below assembler.labels arch.memorySize)
    (pass : Pass) (number : Nat) (line : SourceLine) :
    Below (assembler.treatLine pass number line).1.labels arch.memorySize := by
  cases pass with
  | emit => exact below
  | reserve =>
      change Below (Layout.treatLine line assembler.layout).1.labels arch.memorySize
      unfold Layout.treatLine
      split
      · rw [Layout.labels_treatStatement]
        exact below
      · rename_i label _
        have defined := below.defineLabel assembler.layout label
        split
        · rename_i layout done
          rw [done] at defined
          rw [Layout.labels_treatStatement]
          exact defined
        · exact defined

end Checked.Below

namespace Checked

/-! ## Tables -/

def entry {α : Type} (table : List α) (index : Nat) : Checked α :=
  match table[index]? with
  | some value => .ok value
  | none => .error (.noEntry index)

def setEntry {α : Type} (table : List α) (index : Nat) (value : α) : Checked (List α) :=
  if index < table.length then .ok (table.set index value) else .error (.noEntry index)

@[simp] theorem entry_toList {α : Type} {size : Nat} (cells : Vector α size)
    (position : Fin size) : entry cells.toList position = .ok (cells.get position) := by
  have found : cells.toList[position.val]? = some (cells.get position) := by
    rw [Vector.getElem?_toList]
    exact Vector.getElem?_eq_getElem position.isLt
  rw [entry, found]

@[simp] theorem setEntry_toList {α : Type} {size : Nat} (cells : Vector α size)
    (position : Fin size) (value : α) :
    setEntry cells.toList position value = .ok (cells.set position value position.isLt).toList := by
  rw [setEntry, if_pos (by simp), Snapshot.toList_set]

theorem compact_of_mem : ∀ arch ∈ Catalog.machines, Compact arch := by
  apply Catalog.forall_machine
  all_goals
    refine ⟨by decide, by decide, ?_⟩
    intro kind
    cases kind <;> decide

theorem mask_natCast {arch : Architecture} (compact : Compact arch) (address : Nat) :
    mask arch address = arch.cell address := by
  rw [mask_eq compact, Architecture.wrap_natCast]

/-- Does something at the cells of a table, the first of which has the given index. -/
def forCells {arch : Architecture} {α : Type}
    (act : Machine arch → Fin arch.memorySize → α → Machine arch) (machine : Machine arch) :
    Nat → List α → Checked (Machine arch)
  | _, [] => .ok machine
  | index, value :: values =>
      if inside : index < arch.memorySize then
        forCells act (act machine ⟨index, inside⟩ value) (index + 1) values
      else .error (.noEntry index)

end Checked

namespace PlainTables

open Checked

/-! ## Lines -/

def clear (_tables : PlainTables) (size : Nat) : PlainTables where
  cursor := 0
  labels := []
  labelTexts := List.replicate size ""
  reserved := List.replicate size false
  memory := List.replicate size 0
  sourceMap := .empty

def defineLabel (tables : PlainTables) (label : String) : Checked (PlainTables × Outcome Unit) :=
  if !isLabel label.toList then .ok (tables, reject (.invalidLabel label))
  else if (tables.labels.find? label).isSome then .ok (tables, reject (.duplicateLabel label))
  else do
    let labels := tables.labels.define label tables.cursor
    let earlier ← entry tables.labelTexts tables.cursor
    let labelTexts ←
      if earlier.isEmpty then setEntry tables.labelTexts tables.cursor label
      else .ok tables.labelTexts
    return ({ tables with labels, labelTexts }, .ok ())

/-- Takes `count` cells from a distance behind the cursor on, up to the first taken one. -/
def reserveFrom (arch : Architecture) (tables : PlainTables) (offset : Nat) :
    Nat → Checked (PlainTables × Outcome Unit)
  | 0 => .ok (tables, .ok ())
  | count + 1 => do
      let address := mask arch (tables.cursor + offset : Nat)
      if ← entry tables.reserved address then return (tables, reject (.memoryOverlap address))
      else
        let reserved ← setEntry tables.reserved address true
        reserveFrom arch { tables with reserved } (offset + 1) count

/-- Puts the bytes of a line from a distance behind the cursor on. -/
def putFrom (arch : Architecture) (line : Nat) (tables : PlainTables) (offset : Nat) :
    List UInt8 → Checked PlainTables
  | [] => .ok tables
  | byte :: bytes => do
      let address := mask arch (tables.cursor + offset : Nat)
      let memory ← setEntry tables.memory address byte
      let sourceMap := tables.sourceMap.insert address line
      putFrom arch line { tables with memory, sourceMap } (offset + 1) bytes

/-- Takes cells for bytes or puts the bytes there, and moves behind them. -/
def place (arch : Architecture) (pass : Pass) (line : Nat) (tables : PlainTables)
    (bytes : List UInt8) : Checked (PlainTables × Outcome Unit) := do
  let placed ←
    match pass with
    | .reserve => tables.reserveFrom arch 0 bytes.length
    | .emit => (tables.putFrom arch line 0 bytes).map fun tables => (tables, .ok ())
  match placed with
  | (tables, .ok ()) =>
      return ({ tables with cursor := mask arch (tables.cursor + bytes.length : Nat) }, .ok ())
  | failed => return failed

/-- Does what a statement says in one of the passes. -/
def treatStatement (arch : Architecture) (pass : Pass) (number : Nat) (tables : PlainTables)
    (statement : String) : Checked (PlainTables × Outcome Unit) :=
  if statement.isEmpty then .ok (tables, .ok ())
  else do
    let scope : Scope := ⟨pass, tables.labels, tables.cursor⟩
    match ← (Checked.statementEffect scope arch statement).run with
    | .ok (.origin address) => return ({ tables with cursor := address }, .ok ())
    | .ok (.data bytes) => tables.place arch pass number bytes
    | .error failure => return (tables, .error failure)

def treatLine (arch : Architecture) (pass : Pass) (number : Nat) (text : String)
    (tables : PlainTables) : Checked (PlainTables × Outcome Unit) := do
  let line ← sourceLine text.toList
  match line.label, pass with
  | some label, .reserve => do
      match ← tables.defineLabel label with
      | (tables, .ok ()) => tables.treatStatement arch pass number line.statement
      | failed => return failed
  | _, _ => tables.treatStatement arch pass number line.statement

def checkCursor (arch : Architecture) (tables : PlainTables) : Checked Unit :=
  if tables.cursor < arch.memorySize then .ok () else .error (.cursorOutside tables.cursor)

/-- The problem of a line, if it has one; a fault of the machine traps. -/
def lineError (number : Nat) : Outcome Unit → Checked (Option SourceError)
  | .ok () => .ok none
  | .error (.problem problem) => .ok (some ⟨number, problem⟩)
  | .error (.fault fault) => .error (.fault fault)

/-- Treats a line between two checks of the cursor. -/
def checkedLine (arch : Architecture) (pass : Pass) (number : Nat) (text : String)
    (tables : PlainTables) : Checked (PlainTables × Option SourceError) := do
  tables.checkCursor arch
  let (after, outcome) ← tables.treatLine arch pass number text
  after.checkCursor arch
  let error? ← lineError number outcome
  return (after, error?)

/-! ## Builds -/

/-- Goes through lines, the first of which has the given number. -/
def goThroughFrom (arch : Architecture) (pass : Pass) (tables : PlainTables) :
    Nat → List String → Checked (List SourceError × PlainTables)
  | _, [] => .ok ([], tables)
  | number, text :: texts => do
      let (after, error?) ← tables.checkedLine arch pass number text
      let (errors, last) ← goThroughFrom arch pass after (number + 1) texts
      return (error?.toList ++ errors, last)

/-- Goes through the lines of a program from the first cell on. -/
def goThrough (arch : Architecture) (pass : Pass) (tables : PlainTables) (texts : List String) :
    Checked (List SourceError × PlainTables) :=
  { tables with cursor := 0 }.goThroughFrom arch pass 0 texts

/-- Puts a build into a machine and resets it; events are held back meanwhile. -/
def commit {arch : Architecture} (tables : PlainTables) (machine : Machine arch) :
    Checked (Machine arch) := do
  let written ← forCells (fun machine cell byte =>
    if machine.peek cell = byte then machine else machine.poke cell byte.toNat)
    machine.startQueue 0 tables.memory
  let labelled ← forCells Machine.setLabel written 0 tables.labelTexts
  return labelled.reset.flush

/-- Builds a program, and puts it into the machine if there were no problems. -/
def assemble {arch : Architecture} (tables : PlainTables) (machine : Machine arch)
    (source : String) : Checked (List SourceError × PlainTables × Machine arch) := do
  let texts := Text.lines source
  let (errors, reserved) ← (tables.clear arch.memorySize).goThrough arch .reserve texts
  if !errors.isEmpty then return (errors, reserved, machine)
  else
    let (errors, emitted) ← reserved.goThrough arch .emit texts
    if !errors.isEmpty then return (errors, emitted, machine)
    else return ([], emitted, ← emitted.commit machine)

def of {arch : Architecture} (assembler : Assembler arch) : PlainTables where
  cursor := assembler.cursor
  labels := assembler.labels
  labelTexts := assembler.labelTexts.toList
  reserved := assembler.reserved.toList
  memory := assembler.memory.toList
  sourceMap := assembler.sourceMap

/-! ## Statements -/

/-- No check traps while the effect of a statement is worked out. -/
theorem treatStatement_eq {arch : Architecture} {scope : Scope} (inside : Inside scope arch)
    {tables : PlainTables} (labels : tables.labels = scope.labels)
    (cursor : tables.cursor = scope.cursor) {line : SourceLine} (small : line.Small)
    (number : Nat) :
    tables.treatStatement arch scope.pass number line.statement =
      if line.statement.isEmpty then .ok (tables, .ok ())
      else
        match Assembly.statementEffect scope arch line.statement with
        | .ok (.origin address) => .ok ({ tables with cursor := address }, .ok ())
        | .ok (.data bytes) => tables.place arch scope.pass number bytes
        | .error failure => .ok (tables, .error failure) := by
  unfold treatStatement
  dsimp only
  rw [labels, cursor, statementEffect_eq inside small.tokens]
  cases Assembly.statementEffect scope arch line.statement with
  | error failure => rfl
  | ok effect => cases effect <;> rfl

/-! ## The first pass -/

section Reserve

variable {arch : Architecture} (compact : Compact arch) (assembler : Assembler arch)

theorem defineLabel_eq (layout : Layout arch) (label : String) :
    (of (assembler.withLayout layout)).defineLabel label =
      .ok (of (assembler.withLayout (layout.defineLabel label).1),
        (layout.defineLabel label).2) := by
  unfold defineLabel Layout.defineLabel
  split
  · rfl
  · have labels : (of (assembler.withLayout layout)).labels = layout.labels := rfl
    rw [labels]
    split
    · rfl
    · dsimp only [of, Assembler.withLayout]
      rw [entry_toList, setEntry_toList, ok_bind]
      split <;> rfl

include compact in
theorem reserveFrom_eq (layout : Layout arch) (offset count : Nat) :
    (of (assembler.withLayout layout)).reserveFrom arch offset count =
      .ok (of (assembler.withLayout (layout.reserveFrom (layout.cursor + offset) count).1),
        (layout.reserveFrom (layout.cursor + offset) count).2) := by
  induction count generalizing layout offset with
  | zero => rfl
  | succ count induction =>
      have cell : mask arch ((of (assembler.withLayout layout)).cursor + offset : Nat) =
          arch.cell (layout.cursor + offset) :=
        mask_natCast compact _
      rw [Layout.reserveFrom_succ]
      unfold reserveFrom
      dsimp only
      rw [cell]
      have reserved : (of (assembler.withLayout layout)).reserved = layout.reserved.toList := rfl
      rw [reserved, entry_toList, setEntry_toList, ok_bind, ok_bind]
      split
      · rfl
      · exact induction { layout with reserved := layout.reserved.set _ true } (offset + 1)

include compact in
theorem place_reserve (layout : Layout arch) (line : Nat) (bytes : List UInt8) :
    (of (assembler.withLayout layout)).place arch .reserve line bytes =
      .ok (of (assembler.withLayout (layout.reserve bytes.length).1),
        (layout.reserve bytes.length).2) := by
  unfold place Layout.reserve
  dsimp only
  rw [reserveFrom_eq compact, ok_bind, Nat.add_zero]
  cases layout.reserveFrom layout.cursor bytes.length with
  | mk after outcome =>
      cases outcome with
      | ok done =>
          dsimp only [of, Assembler.withLayout]
          rw [mask_natCast compact]
          rfl
      | error failure => rfl

include compact in
theorem treatStatement_reserve (layout : Layout arch)
    (below : Below layout.labels arch.memorySize) {line : SourceLine} (small : line.Small)
    (number : Nat) :
    (of (assembler.withLayout layout)).treatStatement arch .reserve number line.statement =
      .ok (of (assembler.withLayout (layout.treatStatement line.statement).1),
        (layout.treatStatement line.statement).2) := by
  have inside : Inside ⟨.reserve, layout.labels, layout.cursor⟩ arch :=
    ⟨compact, below, layout.cursor.isLt⟩
  unfold Layout.treatStatement
  rw [treatStatement_eq inside rfl rfl small]
  split
  · rfl
  · cases Assembly.statementEffect ⟨.reserve, layout.labels, layout.cursor⟩ arch
      line.statement with
    | error failure => rfl
    | ok effect =>
        cases effect with
        | origin address => rfl
        | data bytes => exact place_reserve compact assembler layout number bytes

end Reserve

/-! ## The second pass -/

section Emit

variable {arch : Architecture} (compact : Compact arch) (assembler : Assembler arch)
include compact

theorem putFrom_eq (image : Image arch) (line offset : Nat) (bytes : List UInt8) :
    (of (assembler.withImage image)).putFrom arch line offset bytes =
      .ok (of (assembler.withImage (image.putFrom line (image.cursor + offset) bytes))) := by
  induction bytes generalizing image offset with
  | nil => rfl
  | cons byte bytes induction =>
      have cell : mask arch ((of (assembler.withImage image)).cursor + offset : Nat) =
          arch.cell (image.cursor + offset) :=
        mask_natCast compact _
      have memory : (of (assembler.withImage image)).memory = image.memory.toList := rfl
      rw [Image.putFrom_cons]
      unfold putFrom
      dsimp only
      rw [cell, memory, setEntry_toList, ok_bind]
      exact induction ⟨image.cursor, image.memory.set _ byte, image.sourceMap.insert _ line⟩
        (offset + 1)

theorem place_emit (image : Image arch) (line : Nat) (bytes : List UInt8) :
    (of (assembler.withImage image)).place arch .emit line bytes =
      .ok (of (assembler.withImage (image.put line bytes)), .ok ()) := by
  unfold place Image.put
  dsimp only
  rw [putFrom_eq compact, Nat.add_zero]
  dsimp only [of, Assembler.withImage, Except.map, ok_bind]
  rw [mask_natCast compact]
  rfl

theorem treatStatement_emit (image : Image arch)
    (below : Below assembler.labels arch.memorySize) {line : SourceLine} (small : line.Small)
    (number : Nat) :
    (of (assembler.withImage image)).treatStatement arch .emit number line.statement =
      .ok (of (assembler.withImage (Image.treatLine assembler.labels number line image).1),
        (Image.treatLine assembler.labels number line image).2) := by
  have inside : Inside ⟨.emit, assembler.labels, image.cursor⟩ arch :=
    ⟨compact, below, image.cursor.isLt⟩
  unfold Image.treatLine
  rw [treatStatement_eq inside rfl rfl small]
  split
  · rfl
  · cases Assembly.statementEffect ⟨.emit, assembler.labels, image.cursor⟩ arch
      line.statement with
    | error failure => rfl
    | ok effect =>
        cases effect with
        | origin address => rfl
        | data bytes => exact place_emit compact assembler image number bytes

end Emit

/-! ## Lines of both passes -/

section Lines

variable {arch : Architecture} (compact : Compact arch) (assembler : Assembler arch)
  (below : Below assembler.labels arch.memorySize)
include compact below

theorem treatLine_eq {text : String} (small : (SourceLine.ofText text.toList).Small)
    (pass : Pass) (number : Nat) :
    let treated := assembler.treatLine pass number (.ofText text.toList)
    (of assembler).treatLine arch pass number text = .ok (of treated.1, treated.2) := by
  unfold treatLine Assembler.treatLine
  rw [sourceLine_eq, ok_bind]
  generalize SourceLine.ofText text.toList = line at small
  cases pass with
  | emit =>
      have statement := treatStatement_emit compact assembler assembler.image below small number
      cases line.label <;> exact statement
  | reserve =>
      unfold Layout.treatLine
      dsimp only
      cases line.label with
      | none => exact treatStatement_reserve compact assembler assembler.layout below small number
      | some label =>
          -- The statement is looked at with the new label, which is at the cursor.
          have defined := defineLabel_eq assembler assembler.layout label
          have belowToo := below.defineLabel assembler.layout label
          dsimp only
          rw [show (of assembler).defineLabel label = _ from defined, ok_bind]
          generalize assembler.layout.defineLabel label = result at belowToo ⊢
          obtain ⟨layout, outcome⟩ := result
          cases outcome with
          | ok done => exact treatStatement_reserve compact assembler layout belowToo small number
          | error failure => rfl

omit compact below in
theorem checkCursor_of : (of assembler).checkCursor arch = .ok () :=
  if_pos assembler.cursor.isLt

/-- The cursor is in memory in front of a line and behind it, whatever becomes of the line. -/
theorem checkedLine_eq {text : String} (small : (SourceLine.ofText text.toList).Small)
    (pass : Pass) (number : Nat) :
    let treated := assembler.treatLine pass number (.ofText text.toList)
    (of assembler).checkedLine arch pass number text =
      (lineError number treated.2).map fun error? => (of treated.1, error?) := by
  unfold checkedLine
  rw [checkCursor_of, ok_bind, treatLine_eq compact assembler below small, ok_bind]
  dsimp only
  rw [checkCursor_of, ok_bind]
  rfl

end Lines

/-! ## Passes -/

section Passes

variable {arch : Architecture} (compact : Compact arch) {modes : List CompiledMode}
  (compiled : compiledModes arch.toDatasheet = .ok modes)
include compact compiled

omit compact in
theorem faultFree_assemblerLine (assembler : Assembler arch) (pass : Pass) (number : Nat)
    (line : SourceLine) : FaultFree (assembler.treatLine pass number line).2 := by
  cases pass with
  | reserve => exact faultFree_treatLine compiled line assembler.layout
  | emit => exact faultFree_imageLine compiled assembler.labels number line assembler.image

/-- No check traps in a pass, behind which all labels are still in memory. -/
theorem goThroughFrom_eq {texts : List String}
    (small : ∀ text ∈ texts, (SourceLine.ofText text.toList).Small) (pass : Pass) (number : Nat)
    (assembler : Assembler arch) (below : Below assembler.labels arch.memorySize) :
    let result := passLines (Assembler.treatLine pass) assembler number
      (texts.map fun text => .ofText text.toList)
    (of assembler).goThroughFrom arch pass number texts = .ok (result.errors, of result.state) ∧
      Below result.state.labels arch.memorySize := by
  induction texts generalizing assembler number with
  | nil => exact ⟨rfl, below⟩
  | cons text texts induction =>
      have faultless := faultFree_assemblerLine compiled assembler pass number
        (.ofText text.toList)
      -- A line with a problem may have defined its label, so this does not wait for its outcome.
      have belowAfter := below.treatLine pass number (.ofText text.toList)
      have later := induction (fun other member => small other (by simp [member])) (number + 1)
      rw [goThroughFrom, List.map_cons, passLines,
        checkedLine_eq compact assembler below (small text (by simp))]
      generalize assembler.treatLine pass number (.ofText text.toList) = treated
        at faultless belowAfter ⊢
      obtain ⟨after, outcome⟩ := treated
      obtain ⟨ended, belowLast⟩ := later after belowAfter
      cases outcome with
      | ok done =>
          dsimp only [lineError, Except.map, ok_bind] at ended ⊢
          rw [ended]
          exact ⟨rfl, belowLast⟩
      | error failure =>
          cases failure with
          | problem problem =>
              dsimp only [lineError, Except.map, ok_bind] at ended ⊢
              rw [ended]
              exact ⟨rfl, belowLast⟩
          | fault fault => exact absurd rfl (faultless fault)

theorem goThrough_eq {texts : List String}
    (small : ∀ text ∈ texts, (SourceLine.ofText text.toList).Small) (pass : Pass)
    (assembler : Assembler arch) (below : Below assembler.labels arch.memorySize) :
    let result := assembler.goThrough pass (texts.map fun text => .ofText text.toList)
    (of assembler).goThrough arch pass texts = .ok (result.errors, of result.state) ∧
      result.fault = none ∧ Below result.state.labels arch.memorySize := by
  have start : { of assembler with cursor := 0 } = of { assembler with cursor := arch.cell 0 } := by
    simp [of, Architecture.val_cell_zero]
  obtain ⟨ended, belowLast⟩ := goThroughFrom_eq compact compiled small pass 0
    { assembler with cursor := arch.cell 0 } below
  refine ⟨?_, ?_, belowLast⟩
  · rw [goThrough, start]
    exact ended
  · exact passLines_fault (fun number line assembler =>
      faultFree_assemblerLine compiled assembler pass number line) _ _ _

end Passes

/-! ## The whole build -/

section Builds

variable {arch : Architecture}

theorem forCells_drop {α : Type} (act : Machine arch → Fin arch.memorySize → α → Machine arch)
    (cells : Vector α arch.memorySize) (machine : Machine arch) (index : Nat) :
    forCells act machine index (cells.toList.drop index) =
      .ok (((List.finRange arch.memorySize).drop index).foldl
        (fun machine cell => act machine cell (cells.get cell)) machine) := by
  by_cases inside : index < arch.memorySize
  · have cellHere : cells.toList.drop index =
        cells.get ⟨index, inside⟩ :: cells.toList.drop (index + 1) :=
      List.drop_eq_getElem_cons (by simpa using inside)
    have indexHere : (List.finRange arch.memorySize).drop index =
        ⟨index, inside⟩ :: (List.finRange arch.memorySize).drop (index + 1) := by
      rw [List.drop_eq_getElem_cons (by simpa using inside), List.getElem_finRange]
      rfl
    rw [cellHere, indexHere, forCells, dif_pos inside, List.foldl_cons]
    exact forCells_drop act cells _ (index + 1)
  · rw [List.drop_of_length_le (by simpa using inside),
      List.drop_of_length_le (by simpa using inside)]
    rfl
  termination_by arch.memorySize - index

theorem commit_eq (assembler : Assembler arch) (machine : Machine arch) :
    (of assembler).commit machine = .ok (assembler.commit machine) := by
  have cells := fun {α : Type} act (cells : Vector α arch.memorySize) machine =>
    forCells_drop act cells machine 0
  simp only [List.drop_zero] at cells
  unfold commit
  dsimp only [of]
  rw [cells, ok_bind, cells, ok_bind]
  rfl

theorem clear_eq {before : Architecture} (tables : PlainTables) (assembler : Assembler before) :
    tables.clear arch.memorySize = of (assembler.clear arch) := by
  simp [clear, of, Assembler.clear, Architecture.val_cell_zero]

/-- A build does the same with checks, whatever the tables held before. -/
theorem assemble_eq (compact : Compact arch) {modes : List CompiledMode}
    (compiled : compiledModes arch.toDatasheet = .ok modes) (tables : PlainTables)
    {before : Architecture} (assembler : Assembler before) (machine : Machine arch)
    {source : String} (small : ∀ line ∈ SourceLine.ofSource source, line.Small) :
    let built := assembler.assemble machine source
    built.fault = none ∧
      tables.assemble machine source = .ok (built.errors, of built.assembler, built.machine) := by
  have smallTexts : ∀ text ∈ Text.lines source, (SourceLine.ofText text.toList).Small :=
    fun text member => small _ (List.mem_map_of_mem member)
  obtain ⟨first, noFault, below⟩ := goThrough_eq compact compiled smallTexts .reserve
    (assembler.clear arch) (below_nil _)
  obtain ⟨second, noFaultThen, _⟩ := goThrough_eq compact compiled smallTexts .emit _ below
  have failed : ∀ {result : PassResult (Assembler arch)}, result.fault = none →
      result.failed = !result.errors.isEmpty := by
    intro result fault
    simp [PassResult.failed, fault]
  unfold assemble Assembler.assemble
  dsimp only [SourceLine.ofSource] at *
  rw [clear_eq tables assembler, first, ok_bind, failed noFault]
  dsimp only
  split
  · exact ⟨noFault, rfl⟩
  · rw [second, ok_bind, failed noFaultThen]
    dsimp only
    split
    · exact ⟨noFaultThen, rfl⟩
    · rw [commit_eq, ok_bind]
      exact ⟨rfl, rfl⟩

/--
On every machine of the catalog a program whose numbers are not too large is
built with an answer: no text is cut inside a character, no index is outside its
table, no number outgrows its word, and the cursor is in memory in front of and
behind every line of both passes.  It does not matter what was built before.
-/
theorem assemble_without_trap (known : arch ∈ Catalog.machines) (tables : PlainTables)
    {before : Architecture} (assembler : Assembler before) (machine : Machine arch)
    {source : String} (small : ∀ value ∈ literalsOf source, value.natAbs ≤ literalLimit) :
    let built := assembler.assemble machine source
    built.fault = none ∧
      tables.assemble machine source = .ok (built.errors, of built.assembler, built.machine) := by
  have smallLines : ∀ line ∈ SourceLine.ofSource source, line.Small :=
    fun line member value written => small value (List.mem_flatMap.mpr ⟨line, member, written⟩)
  exact assemble_eq (compact_of_mem arch known) (Catalog.legible arch known).modes.compiled
    tables assembler machine smallLines

theorem assemble_without_trap_wrapping :
    let source := "org -2\nlda Start+1 ; größe 'ß'\nStart: hlt\ndab 'a:b', -1"
    let machine := Machine.new Catalog.neander
    let built := (Assembler.new Catalog.neander).assemble machine source
    Catalog.neander ∈ Catalog.machines ∧
      (∀ value ∈ literalsOf source, value.natAbs ≤ literalLimit) ∧ built.errors = [] ∧
      (of (Assembler.new Catalog.cesar)).assemble machine source =
        .ok ([], of built.assembler, built.machine) := by
  intro source machine built
  have known : Catalog.neander ∈ Catalog.machines := by simp [Catalog.machines]
  have small : ∀ value ∈ literalsOf source, value.natAbs ≤ literalLimit := by decide +kernel
  have noErrors : built.errors = [] := by decide +kernel
  have answer := (assemble_without_trap known (of (Assembler.new Catalog.cesar))
    (Assembler.new Catalog.neander) machine small).2
  change _ = Except.ok (built.errors, of built.assembler, built.machine) at answer
  rw [noErrors] at answer
  exact ⟨known, small, noErrors, answer⟩

-- Beyond the limit the sum of a label and an offset does outgrow its word.
example :
    ((of (Assembler.new Catalog.neander)).assemble (Machine.new Catalog.neander)
      "db 1\nA: org A+9223372036854775807").toBool = false := by
  decide +kernel

end Builds

end PlainTables

end ClassroomCpu.Assembly
