import ClassroomCpu.Proofs.Assembly.History
import ClassroomCpu.Proofs.Execution.Safety
import ClassroomCpu.Session

/-!
# What becomes of a session

Every line of a conversation asks for a build, for a memory image, for another
machine, or for something that changes the machine alone or nothing at all.
Each request has few answers, which say all that becomes of the session.
-/

namespace ClassroomCpu

open Assembly (Assembler Build)

namespace Exec

variable {arch : Architecture}

theorem total_steps (known : arch ∈ Catalog.machines) (count : Nat) :
    Total (Session.steps count : Exec arch Unit) := by
  induction count with
  | zero => exact .of_pure ()
  | succ count induction => exact (total_step known).bind fun _ => induction

theorem writes_steps (count : Nat) : Writes (Session.steps count : Exec arch Unit) := by
  induction count with
  | zero => exact .of_pure ()
  | succ count induction => exact writes_step.bind fun _ => induction

theorem total_runAll (known : arch ∈ Catalog.machines) :
    Total (discard (run noLimit) : Exec arch Unit) :=
  (total_run known noLimit).bind fun _ => .of_pure ()

theorem writes_runAll : Writes (discard (run noLimit) : Exec arch Unit) :=
  (writes_run noLimit).bind fun _ => .of_pure ()

end Exec

namespace Assembly.Assembler

variable {before arch : Architecture} (assembler : Assembler before) (machine : Machine arch)

/-- A program that cannot be built leaves the machine as it was. -/
theorem machine_assemble_of_errors {source : String}
    (failed : (assembler.assemble machine source).errors ≠ []) :
    (assembler.assemble machine source).machine = machine := by
  rcases assemble_cases assembler machine source with
    ⟨_, stopped⟩ | ⟨_, _, stopped⟩ | ⟨_, _, ended⟩
  · rw [stopped]
  · rw [stopped]
  · rw [ended] at failed
    exact absurd rfl failed

/-- No program can always be built. -/
theorem errors_assemble_nothing : (assembler.assemble machine "").errors = [] := rfl

end Assembly.Assembler

namespace Session

/-- A session after some lines; the files may be different ones at every line. -/
inductive Reached : Session → Prop
  | start {name : String} {first : Session} :
      Session.start name = .ok first → Reached first
  | line {session : Session} :
      Reached session → ∀ read line, Reached (session.handle read line).session

/-! ## What lines ask for -/

/--
A program that takes the place of the one that is there: the same with a line more, the program
in a file, or none.
-/
inductive Attempt
  | append (line : String)
  | load (lines : List String)
  | clear
  deriving DecidableEq

namespace Attempt

def program (source : List String) : Attempt → List String
  | append line => source ++ [line]
  | load lines => lines
  | clear => []

/-- The lines that are the program if they cannot be built. -/
def kept (source : List String) : Attempt → List String
  | append _ => source
  | load lines => lines
  | clear => []

def text (source : List String) (attempt : Attempt) : String :=
  "\n".intercalate (attempt.program source)

end Attempt

/--
What a line can ask for: a build, to take over a memory image, to go on with another machine, or
something else, which is to execute, to reset or to show, or has no meaning.
-/
inductive Request
  | build (attempt : Attempt)
  | takeOver (image : List UInt8)
  | switch (name : String)
  | other
  deriving DecidableEq

/-- What a command asks for; a file that cannot be read is nothing to ask for. -/
def Command.request (read : FileReader) (arch : Architecture) : Command → Request
  | .machine name => .switch name
  | .load path =>
      if path.endsWith ("." ++ arch.fileExtension) then
        match read path with
        | .ok image => .takeOver image
        | .error _ => .other
      else
        match read.text path with
        | .ok text => .build (.load (Text.lines text))
        | .error _ => .other
  | .clear => .build .clear
  | _ => .other

/-- What a line asks for. -/
def request (read : FileReader) (session : Session) (line : String) : Request :=
  match Text.trimEnd line.toList with
  | [] => .other
  | '.' :: text =>
      match Command.ofText text with
      | .ok command => command.request read session.arch
      | .error _ => .other
  | text => .build (.append (String.ofList text))

/-! ## What is answered -/

/-- What the assembler answers to an attempt. -/
def assembled (session : Session) (attempt : Attempt) : Assembly.Assembled session.arch :=
  session.assembler.assemble session.machine (attempt.text session.source)

/-- The answers to a request. -/
inductive Answer (session : Session) : Request → Reply → Prop
  | built {attempt : Attempt} (clean : (session.assembled attempt).errors = []) :
      Answer session (.build attempt)
        (.quiet { session with
          machine := (session.assembled attempt).machine
          assembler := (session.assembled attempt).assembler
          source := attempt.program session.source })
  | notBuilt {attempt : Attempt} (failed : (session.assembled attempt).errors ≠ []) :
      Answer session (.build attempt)
        (.refusing { session with
          assembler := (session.assembled attempt).assembler
          source := attempt.kept session.source } (.build (session.assembled attempt).errors))
  | takenOver {image : List UInt8} {machine : Machine session.arch}
      (accepted : session.machine.importImage image = .ok machine) :
      Answer session (.takeOver image) (.quiet { session with machine, source := [] })
  | notTakenOver {image : List UInt8} (error : Error) :
      Answer session (.takeOver image) (.refusing session error)
  | switched {name : String} {fresh : Session} (started : start name = .ok fresh)
      (output : List String) : Answer session (.switch name) (.showing fresh output)
  | notSwitched {name : String} (error : Error) :
      Answer session (.switch name) (.refusing session error)
  | executed {machine : Machine session.arch} (writes : Machine.Writes session.machine machine)
      (output : List String) : Answer session .other (.showing { session with machine } output)
  | reset : Answer session .other (.quiet { session with machine := session.machine.reset })
  | shown (output : List String) : Answer session .other (.showing session output)
  | refused (error : Error) : Answer session .other (.refusing session error)

section Answers

variable {session : Session} (known : session.arch ∈ Catalog.machines)
include known

/-- Nothing but the program keeps a build from succeeding. -/
theorem rebuild_of_clean {attempt : Attempt} (clean : (session.assembled attempt).errors = []) :
    rebuild { session with source := attempt.program session.source } =
      (.ok (), { session with
        machine := (session.assembled attempt).machine
        assembler := (session.assembled attempt).assembler
        source := attempt.program session.source }) := by
  have noFault : (session.assembled attempt).fault = none :=
    Assembler.fault_assemble _ _ _ known
  unfold assembled Attempt.text at clean noFault ⊢
  simp only [rebuild, clean, noFault]

theorem rebuild_of_errors {attempt : Attempt} (failed : (session.assembled attempt).errors ≠ []) :
    rebuild { session with source := attempt.program session.source } =
      (.error (.build (session.assembled attempt).errors), { session with
        assembler := (session.assembled attempt).assembler
        source := attempt.program session.source }) := by
  have noFault : (session.assembled attempt).fault = none :=
    Assembler.fault_assemble _ _ _ known
  have machine : (session.assembled attempt).machine = session.machine :=
    Assembler.machine_assemble_of_errors _ _ failed
  unfold assembled Attempt.text at failed noFault machine ⊢
  unfold rebuild
  dsimp only
  rw [noFault, machine]
  split
  · contradiction
  · rename_i clean
    exact absurd clean failed
  · rfl

theorem answer_addLine (line : String) :
    Answer session (.build (.append line)) (session.addLine line) := by
  unfold addLine
  by_cases clean : (session.assembled (.append line)).errors = []
  · have rebuilt := rebuild_of_clean known clean
    simp only [Attempt.program] at rebuilt
    rw [rebuilt]
    exact .built clean
  · have rebuilt := rebuild_of_errors known clean
    simp only [Attempt.program] at rebuilt
    rw [rebuilt]
    exact .notBuilt clean

/-- A program that is not extended but replaced is the program even if it cannot be built. -/
theorem answer_buildProgram (attempt : Attempt)
    (replaces : attempt.kept session.source = attempt.program session.source) :
    Answer session (.build attempt)
      (buildProgram { session with source := attempt.program session.source }) := by
  unfold buildProgram
  by_cases clean : (session.assembled attempt).errors = []
  · rw [rebuild_of_clean known clean]
    exact .built clean
  · rw [rebuild_of_errors known clean, ← replaces]
    exact .notBuilt clean

omit known in
theorem answer_execute {program : Exec session.arch Unit} (total : Exec.Total program)
    (writes : Exec.Writes program) : Answer session .other (session.execute program) := by
  obtain ⟨_, machine, ends, _⟩ := total session.machine
  have written := writes session.machine
  simp only [Exec.after, ends] at written
  have run : EStateM.run program session.machine = .ok () machine := ends
  simp only [execute, run]
  exact .executed written _

theorem answer_load (read : FileReader) (path : String) :
    Answer session ((Command.load path).request read session.arch) (session.load read path) := by
  simp only [Command.request, load]
  split
  · cases read path with
    | error error => exact .refused _
    | ok image =>
        dsimp only
        cases accepted : session.machine.importImage image with
        | error error => exact .notTakenOver _
        | ok machine => exact .takenOver accepted
  · cases read.text path with
    | error error => exact .refused _
    | ok text => exact answer_buildProgram known (.load (Text.lines text)) rfl

theorem answer_perform (read : FileReader) (command : Command) :
    Answer session (command.request read session.arch) (session.perform read command) := by
  cases command with
  | machine name =>
      unfold Command.request perform
      dsimp only
      cases started : start name with
      | error error => exact .notSwitched _
      | ok fresh => exact .switched started _
  | load path => exact answer_load known read path
  | clear => exact answer_buildProgram known .clear rfl
  | step count => exact answer_execute (Exec.total_steps known count) (Exec.writes_steps count)
  | run => exact answer_execute (Exec.total_runAll known) Exec.writes_runAll
  | reset => exact .reset
  | help | list | registers | flags | memory | disassemble | labels => exact .shown _

/-- What a session answers to a line is an answer to what the line asks for. -/
theorem answer_handle (read : FileReader) (line : String) :
    Answer session (session.request read line) (session.handle read line) := by
  unfold request handle
  cases Text.trimEnd line.toList with
  | nil => exact .shown []
  | cons first text =>
      by_cases point : first = '.'
      · subst point
        change Answer session
          (match Command.ofText text with
            | .ok command => command.request read session.arch
            | .error _ => .other)
          (match Command.ofText text with
            | .ok command => session.perform read command
            | .error error => .refusing session (.command error))
        cases Command.ofText text with
        | error error => exact .refused _
        | ok command => exact answer_perform known read command
      · have noCommand : ∀ rest, first :: text = '.' :: rest → False :=
          fun _ same => point (List.cons.inj same).1
        -- With this fact at hand both matches are decided.
        simp only
        exact answer_addLine known _

end Answers

/-! ## Known machines -/

theorem mem_of_start {name : String} {first : Session} (started : start name = .ok first) :
    first = new first.arch ∧ first.arch ∈ Catalog.machines := by
  unfold start at started
  split at started
  · rename_i arch found
    obtain rfl := Except.ok.inj started
    exact ⟨rfl, List.mem_of_find?_eq_some found⟩
  · contradiction

theorem Answer.known {session : Session} {request : Request} {reply : Reply}
    (answer : Answer session request reply) (known : session.arch ∈ Catalog.machines) :
    reply.session.arch ∈ Catalog.machines := by
  cases answer with
  | switched started => exact (mem_of_start started).2
  | _ => exact known

theorem Reached.known {session : Session} (reached : Reached session) :
    session.arch ∈ Catalog.machines := by
  induction reached with
  | start started => exact (mem_of_start started).2
  | line _ read line known => exact (answer_handle known read line).known known

end Session

end ClassroomCpu
