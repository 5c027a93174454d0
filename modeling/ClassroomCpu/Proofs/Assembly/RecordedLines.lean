import ClassroomCpu.Proofs.Assembly.SymbolTable
import ClassroomCpu.Proofs.SourceMap

/-!
# What a build records

While bytes are emitted the cell of each is recorded with its line, one behind
the other.  The source map of a build is therefore the map of these pairs: a
cell has the last line that emitted it, and a line the first cell that it
emitted.
-/

namespace ClassroomCpu.Assembly

variable {arch : Architecture}

/-- Some cells, each with a line. -/
def recordedFor (line : Nat) (cells : List (Fin arch.memorySize)) : List (Nat × Nat) :=
  cells.map fun cell => (cell.val, line)

/-- The cells that the lines in front of one emit, each with its line. -/
def recordedBefore (arch : Architecture) (lines : List SourceLine) (number : Nat) :
    List (Nat × Nat) :=
  (List.range number).flatMap fun earlier => recordedFor earlier (emittedCells arch lines earlier)

theorem recordedBefore_succ (arch : Architecture) (lines : List SourceLine) (number : Nat) :
    recordedBefore arch lines (number + 1) =
      recordedBefore arch lines number ++ recordedFor number (emittedCells arch lines number) := by
  simp [recordedBefore, List.range_succ]

namespace Image

variable {image after : Image arch} {pairs : List (Nat × Nat)}

/-- Bytes are recorded where they are put. -/
theorem sourceMap_putFrom (recorded : image.sourceMap = .ofList pairs) (line address : Nat)
    (bytes : List UInt8) :
    (image.putFrom line address bytes).sourceMap =
      .ofList (pairs ++ recordedFor line (cellsFrom arch address bytes.length)) := by
  induction bytes generalizing image pairs address with
  | nil => simpa [cellsFrom, recordedFor] using recorded
  | cons byte bytes induction =>
      have one : image.sourceMap.insert (arch.cell address) line =
          .ofList (pairs ++ [((arch.cell address).val, line)]) := by
        rw [SourceMap.ofList_append, recorded]
      rw [putFrom_cons, induction one, List.append_assoc]
      rfl

/-- A line records the cells that it emits. -/
theorem sourceMap_treatLine {labels : LabelTable} {number : Nat} {line : SourceLine}
    (recorded : image.sourceMap = .ofList pairs)
    (treated : treatLine labels number line image = (after, .ok ())) :
    after.sourceMap = .ofList (pairs ++
      recordedFor number (lineCells ⟨.emit, labels, image.cursor⟩ arch line)) := by
  unfold treatLine at treated
  split at treated
  · rename_i nothing
    obtain ⟨rfl, -⟩ := Prod.mk.inj treated
    simpa [lineCells, nothing, recordedFor] using recorded
  · rename_i something
    split at treated
    · rename_i address given
      obtain ⟨rfl, -⟩ := Prod.mk.inj treated
      rw [lineCells_of_effect (by simpa using something) given]
      simpa [Effect.cells, recordedFor] using recorded
    · rename_i bytes given
      obtain ⟨rfl, -⟩ := Prod.mk.inj treated
      rw [lineCells_of_effect (by simpa using something) given]
      exact sourceMap_putFrom recorded number image.cursor bytes
    · simp at treated

end Image

section Lines

variable {lines : List SourceLine} (succeeded : (Build.ofLines arch lines).succeeded = true)
include succeeded

theorem sourceMap_imageBefore :
    ∀ number ≤ lines.length,
      (imageBefore arch lines number).sourceMap = .ofList (recordedBefore arch lines number) := by
  have clean := (clean_of_succeeded succeeded).2.1
  intro number
  induction number with
  | zero =>
      intro _
      rfl
  | succ number induction =>
      intro inside
      have here : lines[number]? = some lines[number] := List.getElem?_eq_getElem (by omega)
      have added := Image.sourceMap_treatLine (induction (by omega)) (treat_stateBefore clean here)
      change (imageBefore arch lines (number + 1)).sourceMap = _ at added
      rw [added, recordedBefore_succ, emittedCells, here]

/-- A build has recorded what its lines emit. -/
theorem sourceMap_ofLines :
    (Build.ofLines arch lines).sourceMap = .ofList (recordedBefore arch lines lines.length) := by
  rw [Build.sourceMap, (clean_of_succeeded succeeded).2.2.2]
  exact sourceMap_imageBefore succeeded lines.length le_rfl

end Lines

/--
Whatever pairs of an address and a line are recorded one behind the other, the
map has the last line of every address, the first address of every line, and as
many addresses as there are different ones; and if no address is given twice,
its two directions fit together.  Such a map is that of a build: it records the
cells that the lines emit.
-/
theorem sourceMap_recordsPairs :
    (∀ pairs : List (Nat × Nat),
      SourceMap.Records pairs (.ofList pairs) ∧
        ((pairs.map Prod.fst).Nodup → SourceMap.Consistent (.ofList pairs))) ∧
    ∀ (arch : Architecture) (lines : List SourceLine),
      (Build.ofLines arch lines).succeeded = true →
        (Build.ofLines arch lines).sourceMap =
          .ofList (recordedBefore arch lines lines.length) :=
  ⟨fun pairs => ⟨SourceMap.records_ofList pairs, SourceMap.consistent_ofList⟩,
    fun _ _ succeeded => sourceMap_ofLines succeeded⟩

/-- The second line that emits bytes emits the one in front of those of the first. -/
theorem sourceMap_recordsPairs_backwards :
    let lines := SourceLine.ofSource "org 4\ndab 1, 2\norg 3\ndb 3"
    let pairs := [(4, 1), (5, 1), (3, 3)]
    let map := (Build.ofLines Catalog.neander lines).sourceMap
    (Build.ofLines Catalog.neander lines).succeeded = true ∧
      recordedBefore Catalog.neander lines lines.length = pairs ∧
      (pairs.map Prod.fst).Nodup ∧ map.Consistent ∧ map.size = 3 ∧
      map.address? 1 = some 4 ∧ map.line? 5 = some 1 := by
  intro lines pairs map
  have succeeded : (Build.ofLines Catalog.neander lines).succeeded = true := by decide +kernel
  have emitted : recordedBefore Catalog.neander lines lines.length = pairs := by decide +kernel
  have distinct : (pairs.map Prod.fst).Nodup := by decide
  have recorded : map = .ofList pairs :=
    (sourceMap_recordsPairs.2 Catalog.neander lines succeeded).trans (congrArg _ emitted)
  obtain ⟨records, consistent⟩ := sourceMap_recordsPairs.1 pairs
  rw [recorded]
  exact ⟨succeeded, emitted, distinct, consistent distinct, records.size, records.addresses 1,
    records.lines 5⟩

end ClassroomCpu.Assembly
