import ClassroomCpu.Proofs.Execution.Access
import ClassroomCpu.Proofs.Machine.Held

/-!
# Storing bytes

What is stored in neighbouring cells lies there afterwards, around the end of
memory as well, as long as memory is no smaller than that; the other cells and
the registers are left alone.
-/

namespace ClassroomCpu

variable {arch : Architecture}

namespace Machine

theorem peek_poke (machine : Machine arch) (written read : Nat) (value : Int) :
    (machine.poke written value).peek read =
      if written % arch.memorySize = read % arch.memorySize then UInt8.ofInt value
      else machine.peek read := by
  change (machine.memory.set _ _).get _ = _
  rw [get_set]
  simp only [Fin.ext_iff]
  rfl

/-- Memory after bytes were stored in it from an address on. -/
structure Stored (machine : Machine arch) (address : Nat) (bytes : List UInt8)
    (after : Machine arch) : Prop where
  there : after.Holds address bytes
  elsewhere : ∀ place, (∀ offset < bytes.length,
    place % arch.memorySize ≠ (address + offset) % arch.memorySize) →
      after.peek place = machine.peek place

/-- Only memory counts. -/
theorem Stored.congr {machine other after later : Machine arch} {address : Nat}
    {bytes : List UInt8} (stored : machine.Stored address bytes after)
    (before : machine.memory = other.memory) (same : later.memory = after.memory) :
    other.Stored address bytes later where
  there := stored.there.congr same rfl
  elsewhere place outside := by
    rw [peek, same, ← peek, stored.elsewhere place outside, peek, before, ← peek]

end Machine

namespace Exec

theorem stored_writeBytes (address : Nat) (bytes : List UInt8)
    (fits : bytes.length ≤ arch.memorySize) (machine : Machine arch) :
    Ends (writeBytes address bytes) machine fun _ after =>
      machine.Stored address bytes after ∧ after.registers = machine.registers := by
  induction bytes generalizing address machine with
  | nil => exact .of_pure ⟨⟨Machine.holds_nil address, fun _ _ => rfl⟩, rfl⟩
  | cons byte bytes induction =>
      have written : writeByte address byte machine =
          .ok () (machine.countAccess.poke address byte.toNat) := rfl
      apply Ends.after written
      apply (induction (address + 1) (Nat.le_of_succ_le fits) _).mono
      rintro _ after ⟨stored, registers⟩
      refine ⟨⟨Machine.holds_cons.mpr ⟨?_, stored.there⟩, fun place outside => ?_⟩, registers⟩
      · rw [stored.elsewhere address, Machine.peek_poke, if_pos rfl, ofInt_toNat]
        -- The other bytes do not come round to the first one.
        intro offset inside same
        have distance := Nat.sub_mod_eq_zero_of_mod_eq same.symm
        rw [Nat.add_assoc, Nat.add_sub_cancel_left, Nat.mod_eq_of_lt] at distance
        · omega
        · rw [List.length_cons] at fits
          omega
      · have apart : place % arch.memorySize ≠ address % arch.memorySize := outside 0 (by simp)
        rw [stored.elsewhere place, Machine.peek_poke, if_neg apart.symm, Machine.peek_countAccess]
        · intro offset inside
          have other := outside (offset + 1) (by simpa using inside)
          rwa [Nat.add_comm offset, ← Nat.add_assoc] at other

end Exec

end ClassroomCpu
