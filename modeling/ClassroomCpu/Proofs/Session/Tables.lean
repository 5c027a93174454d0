import ClassroomCpu.Proofs.Assembly.SymbolTable
import ClassroomCpu.Proofs.MemoryImage.Takeover
import ClassroomCpu.Proofs.Session.Conversation
import ClassroomCpu.Proofs.Session.Shown

/-!
# Tables and the program in memory

As long as every line is accepted, the listing shows the addresses that the
program has in memory.  The labels that are shown are those in memory, except
after a memory image: it takes the labels of memory away, but the assembler
keeps those of the last build.
-/

namespace ClassroomCpu

open Assembly (Assembler Build Labelled SourceLine emittedCells)

namespace Machine

variable {arch : Architecture}

theorem Write.labels {machine after : Machine arch} (write : Write machine after) :
    after.labels = machine.labels := by
  cases write with
  | pokeStack index value =>
      unfold Machine.pokeStack
      split <;> rfl
  | poke | setRegister | setFlag | setRunning | setInstructionCount | setAccessCount => rfl

theorem Writes.labels {machine after : Machine arch} (writes : Writes machine after) :
    after.labels = machine.labels := by
  induction writes with
  | refl => rfl
  | tail _ write induction => exact write.labels.trans induction

end Machine

namespace Session

/-! ## Accepted lines -/

/-- Whether the memory is that of an image, after a request with which it may have been before. -/
def Request.fromImage (before : Bool) : Request → Bool
  | build _ => false
  | takeOver _ => true
  | switch _ => false
  | other => before

/--
A session after some lines, all of which were accepted, and whether a memory image came after the
last build.
-/
inductive Accepted : Session → Bool → Prop
  | start {name : String} {first : Session} :
      Session.start name = .ok first → Accepted first false
  | line {session : Session} {fromImage : Bool} :
      Accepted session fromImage → ∀ read line, (session.handle read line).error = none →
        Accepted (session.handle read line).session
          ((session.request read line).fromImage fromImage)

/-- The lines of the program as the assembler reads them. -/
def sourceLines (session : Session) : List SourceLine :=
  SourceLine.ofSource ("\n".intercalate session.source)

/-! ## What accepted lines keep -/

/-- The tables of a session describe the program and, unless it comes from an image, memory. -/
structure Described (session : Session) (fromImage : Bool) : Prop where
  known : session.arch ∈ Catalog.machines
  /-- Every line has the address of its first byte. -/
  addresses : ∀ number < session.source.length, session.assembler.address? number =
    (emittedCells session.arch session.sourceLines number).head?.map Fin.val
  /-- The labels are at the cells that are given a label. -/
  named : session.assembler.layout.Named
  /-- The cells have these labels, or none. -/
  labels : session.machine.labels =
    if fromImage then Vector.replicate _ "" else session.assembler.labelTexts

variable {session : Session} {fromImage : Bool}

theorem described_new {arch : Architecture} (known : arch ∈ Catalog.machines) :
    (new arch).Described false where
  known := known
  addresses number inside := absurd inside (Nat.not_lt_zero number)
  named := Assembly.Layout.named_start
  labels := rfl

theorem described_start {name : String} {first : Session} (started : start name = .ok first) :
    first.Described false := by
  obtain ⟨isNew, known⟩ := mem_of_start started
  rw [isNew]
  exact described_new known

/-- A program that can be built is described whatever was there before. -/
theorem described_built (known : session.arch ∈ Catalog.machines) {attempt : Attempt}
    (clean : (session.assembled attempt).errors = []) :
    Described { session with
      machine := (session.assembled attempt).machine
      assembler := (session.assembled attempt).assembler
      source := attempt.program session.source } false := by
  let built := session.assembled attempt
  have succeeded : (Build.ofSource session.arch (attempt.text session.source)).succeeded = true :=
    Assembler.succeeded_assemble session.assembler session.machine _ known clean
  obtain ⟨_, _, holds, _⟩ := Assembler.assemble_eq_build session.assembler session.machine
    (attempt.text session.source)
  have holds : built.assembler.Holds _ := holds
  refine ⟨known, ?_, ?_, ?_⟩
  · intro number _
    exact (congrArg (·.address? number) holds.sourceMap).trans
      (Assembly.address?_ofLines succeeded number)
  · intro address
    change (∃ name, (name, address) ∈ built.assembler.labels) ↔
      Labelled built.assembler.labelTexts address
    rw [holds.labels, holds.labelTexts]
    exact Assembly.Layout.named_ofLines succeeded address
  · exact Assembler.labels_assemble session.assembler session.machine _ known clean

/-- A memory image takes all labels of memory away, and the program. -/
theorem Described.takenOver (described : session.Described fromImage) {image : List UInt8}
    {machine : Machine session.arch} (accepted : session.machine.importImage image = .ok machine) :
    Described { session with machine, source := [] } true where
  known := described.known
  addresses number inside := absurd inside (Nat.not_lt_zero number)
  named := described.named
  labels := eq_of_get fun cell =>
    ((Machine.takenOver_of_importImage accepted).2.labels cell).trans (get_replicate "" cell).symm

theorem Described.withMachine (described : session.Described fromImage)
    {machine : Machine session.arch} (labels : machine.labels = session.machine.labels) :
    Described { session with machine } fromImage where
  known := described.known
  addresses := described.addresses
  named := described.named
  labels := labels.trans described.labels

theorem Answer.described {request : Request} {reply : Reply}
    (answer : Answer session request reply) (accepted : reply.error = none)
    (described : session.Described fromImage) :
    reply.session.Described (request.fromImage fromImage) := by
  cases answer with
  | built clean => exact described_built described.known clean
  | takenOver imported => exact described.takenOver imported
  | switched started => exact described_start started
  | executed writes => exact described.withMachine writes.labels
  | reset =>
      exact described.withMachine
        (Machine.labels_reset (Machine.reachesStack _ described.known) session.machine)
  | shown => exact described
  | notBuilt | notTakenOver | notSwitched | refused => contradiction

theorem Accepted.described (accepted : Accepted session fromImage) :
    session.Described fromImage := by
  induction accepted with
  | start started => exact described_start started
  | line _ read line noError described =>
      exact (answer_handle described.known read line).described noError described

/-! ## What is shown -/

/-- A label is shown at the address. -/
def ShowsLabel (session : Session) (address : Nat) : Prop :=
  ∃ name, labelRow (name, address) ∈ session.labelLines

theorem showsLabel_iff {address : Nat} :
    session.ShowsLabel address ↔ ∃ name, (name, address) ∈ session.assembler.labels := by
  unfold ShowsLabel
  rw [labelLines_eq]
  constructor
  · rintro ⟨name, shown⟩
    obtain ⟨⟨other, place⟩, member, same⟩ := List.mem_map.mp shown
    obtain rfl : place = address := address_of_labelRow same
    exact ⟨other, mem_foldr_insertLabel.mp member⟩
  · rintro ⟨name, member⟩
    exact ⟨name, List.mem_map_of_mem (mem_foldr_insertLabel.mpr member)⟩

theorem labelLines_eq_nil_iff :
    session.labelLines = [] ↔ ∀ address, ¬ session.ShowsLabel address := by
  constructor
  · rintro none address ⟨name, shown⟩
    rw [none] at shown
    contradiction
  · intro noLabel
    rw [labelLines_eq, labelRows, List.map_eq_nil_iff, List.eq_nil_iff_forall_not_mem]
    rintro ⟨name, address⟩ member
    exact noLabel address (showsLabel_iff.mpr ⟨name, mem_foldr_insertLabel.mp member⟩)

/-- A memory image leaves no label in memory. -/
theorem not_labelled_of_image (accepted : Accepted session true) (address : Nat) :
    ¬ Labelled session.machine.labels address := by
  rw [accepted.described.labels]
  exact Assembly.not_labelled_replicate address

/--
After accepted lines every line of the program is listed with the address of its first byte in
memory, and the labels are shown at the addresses at which memory has a label, unless a memory
image came after a build with labels.
-/
theorem tables_describe_memory (accepted : Accepted session fromImage) :
    (session.listing = session.source.mapIdx fun number line =>
      row number line ((emittedCells session.arch session.sourceLines number).head?.map Fin.val)) ∧
    ((∀ address, session.ShowsLabel address ↔ Labelled session.machine.labels address) ↔
      fromImage = false ∨ session.labelLines = []) := by
  have described := accepted.described
  refine ⟨?_, ?_⟩
  · rw [listing_eq]
    exact mapIdx_row_eq_iff.mpr described.addresses
  · cases fromImage with
    | false =>
        refine iff_of_true ?_ (.inl rfl)
        intro address
        rw [showsLabel_iff, described.labels]
        exact described.named address
    | true =>
        have noLabel := not_labelled_of_image accepted
        simp only [noLabel, iff_false, Bool.true_eq_false, false_or]
        exact labelLines_eq_nil_iff.symm

theorem accepted_new_neander : Accepted (new Catalog.neander) false :=
  .start (show start "neander" = .ok (new Catalog.neander) from rfl)

/-- A program that is typed after a memory image has its own labels. -/
theorem tables_describe_memory_rebuilt :
    let files : FileReader := fun _ => .ok (Machine.new Catalog.neander).exportImage
    let built := ((new Catalog.neander).handle files "a: db 1").session
    let loaded := (built.handle files ".load p.mem").session
    let session := (loaded.handle files "b: db 2").session
    Accepted session false ∧
      session.listing = ["   1     0  b: db 2"] ∧
      ∀ address, session.ShowsLabel address ↔ Labelled session.machine.labels address := by
  intro files built loaded session
  have typed := accepted_new_neander.line files "a: db 1" (by decide +kernel)
  have imported := typed.line files ".load p.mem" (by decide +kernel)
  have rebuilt := imported.line files "b: db 2" (by decide +kernel)
  have asked : loaded.request files "b: db 2" = .build (.append "b: db 2") := by decide +kernel
  rw [asked] at rebuilt
  have accepted : Accepted session false := rebuilt
  refine ⟨accepted, by decide +kernel, ?_⟩
  have agree := (tables_describe_memory accepted).2
  exact agree.mpr (.inl rfl)

/-- Once an empty memory image was loaded, the label of the program before is still shown. -/
theorem not_describe_memory_of_image :
    let files : FileReader := fun _ => .ok (Machine.new Catalog.neander).exportImage
    let built := ((new Catalog.neander).handle files "a: db 1").session
    let session := (built.handle files ".load p.mem").session
    Accepted session true ∧
      ¬ ∀ address, session.ShowsLabel address ↔ Labelled session.machine.labels address := by
  intro files built session
  have typed := accepted_new_neander.line files "a: db 1" (by decide +kernel)
  have imported := typed.line files ".load p.mem" (by decide +kernel)
  have asked : built.request files ".load p.mem" =
      .takeOver (Machine.new Catalog.neander).exportImage := by decide +kernel
  rw [asked] at imported
  have accepted : Accepted session true := imported
  refine ⟨accepted, fun agree => ?_⟩
  have shown : session.ShowsLabel 0 := ⟨"A", by decide +kernel⟩
  exact not_labelled_of_image accepted 0 ((agree 0).mp shown)

end Session

end ClassroomCpu
