import ClassroomCpu.Proofs.Session.Conversation
import ClassroomCpu.Proofs.Session.Shown

/-!
# Refused lines

A refused line leaves the machine as it was.  It also leaves the program and all
that is shown of it, unless it asks for a build: then the tables are those of the
program that could not be built, and a program that was read from a file stays.
-/

namespace ClassroomCpu

open Assembly (Assembler Build)

namespace Session

/-- The commands that show a part of the machine. -/
def Command.ShowsMachine : Command → Prop
  | registers | flags | memory .. | disassemble .. => True
  | _ => False

/-- The commands that show the program or its labels. -/
def Command.ShowsProgram : Command → Prop
  | list | labels => True
  | _ => False

/-- The machine with its architecture. -/
def computer (session : Session) : (arch : Architecture) × Machine arch :=
  ⟨session.arch, session.machine⟩

/-- Nobody can tell by the program, the machine or what is shown that there was a line between. -/
structure Unchanged (session after : Session) : Prop where
  source : after.source = session.source
  computer : after.computer = session.computer
  shown : ∀ (read : FileReader) (command : Command),
    command.ShowsMachine ∨ command.ShowsProgram →
      (after.perform read command).output = (session.perform read command).output

/-- A folder without files. -/
def noFiles : FileReader := fun _ => .error .missing

variable {session : Session} {read : FileReader} {line : String}

theorem Unchanged.refl (session : Session) : Unchanged session session :=
  ⟨rfl, rfl, fun _ _ _ => rfl⟩

/-! ## Refused answers -/

/-- A refused request leaves the session, or asks for a program that could not be built. -/
theorem Answer.of_refused {request : Request} {reply : Reply} {error : Error}
    (answer : Answer session request reply) (refused : reply.error = some error) :
    (∀ attempt, request ≠ .build attempt) ∧ reply.session = session ∨
      ∃ attempt, request = .build attempt ∧ (session.assembled attempt).errors ≠ [] ∧
        error = .build (session.assembled attempt).errors ∧
        reply.session = { session with
          assembler := (session.assembled attempt).assembler
          source := attempt.kept session.source } := by
  cases answer with
  | notBuilt failed => exact .inr ⟨_, rfl, failed, (Option.some.inj refused).symm, rfl⟩
  | notTakenOver | notSwitched | refused => exact .inl ⟨fun _ => Request.noConfusion, rfl⟩
  | built | takenOver | switched | executed | reset | shown => contradiction

theorem instructionLines_with (assembler : Assembler session.arch) (source : List String)
    (address count : Nat) :
    instructionLines { session with assembler, source } address count =
      session.instructionLines address count := by
  induction count generalizing address with
  | zero => rfl
  | succ count induction =>
      rw [instructionLines, instructionLines, induction]
      rfl

/-- What is shown of the machine has nothing to do with program and tables. -/
theorem output_of_showsMachine {command : Command} (shows : command.ShowsMachine)
    (assembler : Assembler session.arch) (source : List String) (read : FileReader) :
    (perform read { session with assembler, source } command).output =
      (session.perform read command).output := by
  cases command with
  | registers | flags | memory => rfl
  | disassemble start count => exact instructionLines_with assembler source _ count
  | _ => exact absurd shows id

/-- Other tables are noticed by the listing or by the labels. -/
theorem unchanged_iff {assembler : Assembler session.arch} {source : List String} :
    Unchanged session { session with assembler, source } ↔
      source = session.source ∧
        (∀ number < session.source.length,
          assembler.address? number = session.assembler.address? number) ∧
        labelRows assembler.labels = labelRows session.assembler.labels := by
  constructor
  · rintro ⟨sameSource, _, shown⟩
    dsimp only at sameSource
    subst sameSource
    refine ⟨rfl, ?_, ?_⟩
    · exact mapIdx_row_eq_iff.mp (shown (fun _ => .ok []) .list (.inr trivial))
    · exact shown (fun _ => .ok []) .labels (.inr trivial)
  · rintro ⟨rfl, addresses, labels⟩
    refine ⟨rfl, rfl, ?_⟩
    intro read command shows
    cases command with
    | list => exact mapIdx_row_eq_iff.mpr addresses
    | labels => exact labels
    | _ =>
        rcases shows with machine | program
        · exact output_of_showsMachine machine _ _ read
        · exact absurd program id

/-! ## Refused lines of a conversation -/

/--
A refused line leaves the machine and what is shown of it.  If it asks for no build, it leaves the
whole session; otherwise tables of the program that could not be built are left behind, and the
session is unchanged exactly if the program stays and these tables show what was shown before.
-/
theorem refused_line (reached : Reached session) {error : Error}
    (refused : (session.handle read line).error = some error) :
    let after := (session.handle read line).session
    after.computer = session.computer ∧
    (∀ (files : FileReader) (command : Command), command.ShowsMachine →
      (after.perform files command).output = (session.perform files command).output) ∧
    ((∀ attempt, session.request read line ≠ .build attempt) → after = session) ∧
    (∀ attempt, session.request read line = .build attempt →
      let build := Build.ofSource session.arch (attempt.text session.source)
      attempt ≠ .clear ∧ build.errors ≠ [] ∧ error = .build build.errors ∧
        ∃ tables : Assembler session.arch, tables.Holds build ∧
          after = { session with assembler := tables, source := attempt.kept session.source }) ∧
    (Unchanged session after ↔ ∀ attempt, session.request read line = .build attempt →
      let build := Build.ofSource session.arch (attempt.text session.source)
      attempt.kept session.source = session.source ∧
        (∀ number < session.source.length,
          build.sourceMap.address? number = session.assembler.address? number) ∧
        labelRows build.labels = session.labelLines) := by
  intro after
  rcases (answer_handle reached.known read line).of_refused refused with
    ⟨noBuild, same⟩ | ⟨attempt, asked, failed, wording, left⟩
  · have same : after = session := same
    rw [same]
    refine ⟨rfl, fun _ _ _ => rfl, fun _ => rfl, ?_, ?_⟩
    · exact fun attempt asked => absurd asked (noBuild attempt)
    · exact iff_of_true (.refl session) fun attempt asked => absurd asked (noBuild attempt)
  · have left : after = _ := left
    obtain ⟨errors, _, holds, _⟩ := Assembler.assemble_eq_build session.assembler session.machine
      (attempt.text session.source)
    rw [left]
    refine ⟨rfl, fun files command shows => output_of_showsMachine shows _ _ files, ?_, ?_, ?_⟩
    · exact fun noBuild => absurd asked (noBuild attempt)
    · intro other sameAsked
      obtain rfl := Request.build.inj (asked.symm.trans sameAsked)
      refine ⟨?_, errors ▸ failed, errors ▸ wording, _, holds, rfl⟩
      rintro rfl
      exact failed (Assembler.errors_assemble_nothing _ _)
    · rw [unchanged_iff]
      have addresses : ∀ number, (session.assembled attempt).assembler.address? number =
          (Build.ofSource session.arch (attempt.text session.source)).sourceMap.address? number :=
        fun number => congrArg (·.address? number) holds.sourceMap
      have labels : (session.assembled attempt).assembler.labels = _ := holds.labels
      simp only [addresses, labels]
      constructor
      · intro unnoticed other sameAsked
        obtain rfl := Request.build.inj (asked.symm.trans sameAsked)
        exact unnoticed
      · exact fun unnoticed => unnoticed attempt asked

theorem reached_new_neander : Reached (new Catalog.neander) :=
  .start (show start "neander" = .ok (new Catalog.neander) from rfl)

/-- An incomplete line is taken away again, and the machine knows nothing of it. -/
theorem refused_line_incomplete :
    let session := ((new Catalog.neander).handle noFiles "a: db 1").session
    let reply := session.handle noFiles "b: sta"
    Reached session ∧
      reply.error.map Error.message =
        some "build failed\n  Line 2: Wrong number of arguments for STA" ∧
      reply.session.computer = session.computer ∧
      reply.session.source = ["a: db 1"] := by
  intro session reply
  have reached : Reached session := .line reached_new_neander _ _
  have wording : reply.error.map Error.message =
      some "build failed\n  Line 2: Wrong number of arguments for STA" := by decide +kernel
  obtain ⟨error, refused, _⟩ := Option.map_eq_some_iff.mp wording
  obtain ⟨machine, _, _, build, _⟩ := refused_line reached refused
  obtain ⟨_, _, _, tables, _, left⟩ := build (.append "b: sta") (by decide +kernel)
  have kept : (Attempt.append "b: sta").kept session.source = ["a: db 1"] := by decide +kernel
  exact ⟨reached, wording, machine, (congrArg Session.source left).trans kept⟩

/--
Not every refused line leaves what is shown: one that cannot be built is seen in the labels, and a
file that cannot be built is the program.
-/
theorem not_unchanged_of_refused_line :
    let session := ((new Catalog.neander).handle noFiles "a: db 1").session
    let files : FileReader := fun _ => .ok (MemoryImage.textBytes "sta")
    Reached session ∧
      ((session.handle noFiles "b: sta").error ≠ none ∧
        ¬ Unchanged session (session.handle noFiles "b: sta").session) ∧
      (session.handle files ".load p.asm").error ≠ none ∧
        ¬ Unchanged session (session.handle files ".load p.asm").session := by
  intro session files
  refine ⟨.line reached_new_neander _ _, ⟨by decide +kernel, ?_⟩,
    by decide +kernel, ?_⟩
  · intro unchanged
    have shown := unchanged.shown noFiles .labels (.inr trivial)
    exact absurd shown (by decide +kernel)
  · intro unchanged
    have source := unchanged.source
    exact absurd source (by decide +kernel)

end Session

end ClassroomCpu
