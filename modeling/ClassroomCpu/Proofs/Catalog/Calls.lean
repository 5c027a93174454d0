import ClassroomCpu.Proofs.Execution.ByteCalls
import ClassroomCpu.Proofs.Execution.WordCalls

/-!
# Calls return behind the call

Ramses and Pericles store return addresses where their calls lead, Volta keeps
them on its stack, and Cesar in a register that it puts onto its stack.  On
each of them a call can be undone, around the end of memory or of the stack as
well.
-/

namespace ClassroomCpu

namespace Catalog

theorem indexApart_ramses : ramses.IndexApart :=
  indexApart_of_byte ramses (by simp [machines]) (by decide)

theorem indexApart_pericles : pericles.IndexApart :=
  indexApart_of_byte pericles (by simp [machines]) (by decide)

/-- The stack pointer of Cesar. -/
def cesarStackPointer : Fin cesar.registers.length :=
  ⟨6, by decide⟩

theorem wordStackPointer_cesar :
    (Exec.wordStackPointer : Exec cesar (Fin cesar.registers.length)) = pure cesarStackPointer :=
  rfl

/-- The register that a call of Cesar links through, which its opcode selects. -/
def linkRegister (machine : Machine cesar) : Fin cesar.registers.length :=
  wordRegular_cesar.selected (machine.peek machine.counter)

/--
On Ramses and Pericles the cell where a call leads holds the return address
behind it, and a jump there through this cell goes on behind the call.  On Volta
a return where a call leads goes on behind the call and restores the stack
pointer.  On Cesar a return through the register through which a call was linked
leaves all registers, the program counter among them, as they were once the
operand of the call was found, and memory but for the word that was put onto the
stack; the program counter was behind the call by then, unless the operand moved
it back.
-/
theorem calls_return :
    (∀ arch ∈ [ramses, pericles], ∀ machine : Machine arch,
      machine.operationAhead? = some .call → machine.kindAhead ≠ .immediate →
        Exec.Ends Exec.step machine fun _ after => machine.LinkedInMemory after) ∧
    (∀ machine : Machine volta, machine.Sound →
      machine.operationAhead? = some .call → machine.kindAhead ≠ .immediate →
        machine.operationAt? machine.target = some .ret →
          Exec.Ends Exec.step machine fun _ after =>
            after.counter = machine.target ∧
              Exec.Ends Exec.step after fun _ last =>
                last.counter = machine.behind ∧ last.stackPointer = machine.stackPointer) ∧
    (∀ machine : Machine cesar, machine.Sound → machine.operationAhead? = some .call →
      Exec.operandKind cesar (machine.peek (machine.counter + 1)) ≠ .register →
        linkRegister machine ≠ cesarStackPointer →
          Exec.Ends (WordOperand.ofBits cesar (machine.peek (machine.counter + 1))).locate
            machine.pastOpcode.pastOpcode fun location found =>
              found.memory = machine.memory ∧
                found.counter = machine.resolvedCounter (machine.peek (machine.counter + 1)) ∧
                  Exec.Ends Exec.step machine fun _ after =>
                    (∃ target, location = .memory target ∧ after.counter = target % 65536) ∧
                      found.Linked (linkRegister machine) cesarStackPointer after ∧
                        (after.operationAhead? = some .ret →
                          linkRegister after = linkRegister machine →
                            Exec.Ends Exec.step after fun _ last =>
                              found.Returned (linkRegister machine) cesarStackPointer last)) := by
  refine ⟨?_, ?_, ?_⟩
  · intro arch member machine calls notImmediate
    rcases List.mem_pair.mp member with rfl | rfl
    · exact Exec.linkedInMemory_step rfl indexApart_ramses (by decide) (by decide) calls notImmediate
    · exact Exec.linkedInMemory_step rfl indexApart_pericles (by decide) (by decide) calls
        notImmediate
  · intro machine sound calls notImmediate returns
    exact Exec.returns_step_volta sound calls notImmediate returns
  · intro machine sound calls inMemory other
    have apart : cesarStackPointer ≠ cesar.counter := by decide
    apply (Exec.linked_step wordRegular_cesar wordStackPointer_cesar apart sound calls inMemory
      other).mono
    rintro location found ⟨foundSound, memory, counter, steps⟩
    refine ⟨memory, counter, steps.mono ?_⟩
    rintro _ after ⟨goes, linked⟩
    refine ⟨goes, linked, fun returns selects => ?_⟩
    exact Exec.returned_step wordRegular_cesar wordStackPointer_cesar apart foundSound linked
      returns (congrArg Fin.val selects)

/-- Calls around the end of memory and of the stacks return to 19 and to 2. -/
theorem calls_return_around :
    (let machine := ((((((Machine.new pericles).poke 16 0xC0).poke 17 0xFF).poke 18 0x0F).poke
        1 0x81).poke 2 0xFF).poke 3 0x0F |>.setCounter 16
      ∃ after last, Exec.step machine = .ok () after ∧ after.Holds 4095 [19, 0] ∧
        Exec.step after = .ok () last ∧ last.counter = 19) ∧
    (let machine := (((Machine.new volta).poke 0 0x84).poke 1 200).poke 200 0x66 |>.setRegister
        ⟨1, by decide⟩ 63
      ∃ after last, Exec.step machine = .ok () after ∧ Exec.step after = .ok () last ∧
        last.counter = 2 ∧ last.stackPointer = 63) ∧
    (let machine := (((Machine.new cesar).poke 0 0x67).poke 1 0x21).poke 10 0x77 |>.setRegister
        ⟨1, by decide⟩ 10
      ∃ after last, Exec.step machine = .ok () after ∧ after.register cesarStackPointer = 65534 ∧
        Exec.step after = .ok () last ∧ last.counter = 2 ∧ last.register cesarStackPointer = 0) := by
  refine ⟨?_, ?_, ?_⟩
  · intro machine
    obtain ⟨_, after, called, linked⟩ :=
      calls_return.1 pericles (by simp) machine (by decide +kernel) (by decide +kernel)
    have reached : after = Exec.after Exec.step machine := by rw [Exec.after, called]
    obtain ⟨_, last, returned, goes⟩ := linked.returns (by rw [reached]; decide +kernel)
      (by rw [reached]; decide +kernel) (by rw [reached]; decide +kernel)
    have target : machine.target = 4095 := by decide +kernel
    have behind : machine.behind = 19 := by decide +kernel
    have there := linked.stored.there
    rw [target, behind] at there
    exact ⟨after, last, called, there, returned, goes.trans behind⟩
  · intro machine
    have sound : machine.Sound :=
      ((Machine.Sound.new volta).of_same (by rfl)).setRegister ⟨1, by decide⟩ 63
    obtain ⟨_, after, called, -, _, last, returned, goes, restored⟩ :=
      calls_return.2.1 machine sound (by decide +kernel) (by decide +kernel) (by decide +kernel)
    have behind : machine.behind = 2 := by decide +kernel
    have pointer : machine.stackPointer = 63 := by decide +kernel
    exact ⟨after, last, called, returned, goes.trans behind, restored.trans pointer⟩
  · intro machine
    have sound : machine.Sound :=
      ((Machine.Sound.new cesar).of_same (by rfl)).setRegister ⟨1, by decide⟩ 10
    obtain ⟨_, found, finds, -, counter, _, after, called, -, linked, returns⟩ :=
      calls_return.2.2 machine sound (by decide +kernel) (by decide +kernel) (by decide +kernel)
    have reached : after = Exec.after Exec.step machine := by rw [Exec.after, called]
    obtain ⟨_, last, returned, restored⟩ := returns (by rw [reached]; decide +kernel)
      (by rw [reached]; decide +kernel)
    have pointer : found.register cesarStackPointer = 0 := by
      have located : (Exec.after (WordOperand.ofBits cesar (machine.peek (machine.counter + 1))).locate
          machine.pastOpcode.pastOpcode).register cesarStackPointer = 0 := by decide +kernel
      rwa [Exec.after, finds] at located
    have behind : machine.resolvedCounter (machine.peek (machine.counter + 1)) = 2 := by
      decide +kernel
    refine ⟨after, last, called, ?_, returned, ?_, ?_⟩
    · rw [linked.moved, pointer]
      decide
    · exact (restored.registers cesar.counter).trans (counter.trans behind)
    · rw [restored.registers, pointer]

/--
A call of Cesar does not return behind itself if its operand moves the program
counter back: here it leads to its own opcode, over which it puts that of a
return.
-/
theorem not_returns_behind_operand :
    ¬ ∀ machine : Machine cesar, machine.Sound → machine.operationAhead? = some .call →
      Exec.operandKind cesar (machine.peek (machine.counter + 1)) ≠ .register →
        linkRegister machine ≠ cesarStackPointer →
          ∀ after last, Exec.step machine = .ok () after → after.operationAhead? = some .ret →
            linkRegister after = linkRegister machine → Exec.step after = .ok () last →
              last.counter = (machine.counter + 2 + cesar.operandBytes
                (Exec.operandKind cesar (machine.peek (machine.counter + 1)))) % 65536 := by
  intro claim
  let machine := (((Machine.new cesar).poke 0 0x60).poke 1 0x17).setRegister ⟨0, by decide⟩ 0x7000
    |>.setRegister cesarStackPointer 2
  have sound : machine.Sound :=
    (((Machine.Sound.new cesar).of_same (by rfl)).setRegister ⟨0, by decide⟩ 0x7000).setRegister
      cesarStackPointer 2
  have total := Exec.total_step_of_word wordRegular_cesar ⟨_, wordStackPointer_cesar⟩
  obtain ⟨_, after, called, -⟩ := total machine
  obtain ⟨_, last, returned, -⟩ := total after
  have reached : after = Exec.after Exec.step machine := by rw [Exec.after, called]
  have reachedLast : last = Exec.after Exec.step (Exec.after Exec.step machine) := by
    rw [← reached, Exec.after, returned]
  have behind := claim machine sound (by decide +kernel) (by decide +kernel) (by decide +kernel)
    after last called (by rw [reached]; decide +kernel) (by rw [reached]; decide +kernel) returned
  rw [reachedLast] at behind
  revert behind
  decide +kernel

end Catalog

end ClassroomCpu
