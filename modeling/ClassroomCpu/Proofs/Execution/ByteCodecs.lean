import ClassroomCpu.Catalog.Ramses
import ClassroomCpu.Proofs.Execution.Storing
import Mathlib.Algebra.Group.Basic

/-!
# Numbers in memory

Numbers of several bytes are laid out in code, stored by instructions, fetched
by instructions, and shown.  All of these agree on which byte is where, at the
end of memory as well: each byte is cut out of the number by a shift of as many
bytes as are less significant, and what is read is what the bytes can hold of
the number.
-/

namespace ClassroomCpu

namespace ByteOrder

/-- How many bytes of a number are less significant than the one with the given index. -/
def significance (order : ByteOrder) (width index : Nat) : Nat :=
  match order with
  | big => width - 1 - index
  | little => index

theorem getElem?_lowBytes {width index : Nat} (inside : index < width) (value : Int) :
    (lowBytes width value)[index]? = some (UInt8.ofInt (value / 256 ^ index)) := by
  induction width generalizing index value with
  | zero => contradiction
  | succ width induction =>
      cases index with
      | zero => simp [lowBytes]
      | succ index =>
          have shifted : value / 256 ^ (index + 1) = value / 256 / 256 ^ index := by
            rw [Int.ediv_ediv_of_nonneg (by decide), pow_succ, mul_comm]
          rw [lowBytes, List.getElem?_cons_succ, induction (by omega), shifted]

/-- A byte of an encoded number is the number without its less significant bytes. -/
theorem getElem?_encode {width index : Nat} (inside : index < width) (order : ByteOrder)
    (value : Int) :
    (order.encode width value)[index]? =
      some (UInt8.ofInt (value / 256 ^ order.significance width index)) := by
  cases order with
  | big =>
      rw [encode, List.getElem?_reverse (by simpa using inside), length_lowBytes]
      exact getElem?_lowBytes (by omega) value
  | little => exact getElem?_lowBytes inside value

theorem pow_bytes (width : Nat) : (256 : Int) ^ width = 2 ^ (8 * width) := by
  rw [pow_mul]
  rfl

end ByteOrder

variable {arch : Architecture}

namespace Architecture

theorem addressBytes_le_memorySize (arch : Architecture) :
    arch.addressBytes ≤ arch.memorySize := by
  have positive := arch.memorySize_pos
  unfold Datasheet.addressBytes
  split <;> omega

/-- An address fits into its bytes. -/
theorem memorySize_le_pow (bounded : arch.memorySize ≤ 65536) :
    arch.memorySize ≤ 256 ^ arch.addressBytes := by
  unfold Datasheet.addressBytes
  split
  · exact bounded
  · omega

end Architecture

namespace Exec

/-- Bytes of an encoded number lie where they are stored one behind the other. -/
theorem ends_writeBytes_encode (order : ByteOrder) {width : Nat} (fits : width ≤ arch.memorySize)
    (address : Nat) (value : Int) (machine : Machine arch) :
    Ends (writeBytes address (order.encode width value)) machine fun _ after =>
      machine.Stored address (order.encode width value) after := by
  have stores := stored_writeBytes address (order.encode width value) (by simpa using fits) machine
  exact stores.mono fun _ _ stored => stored.1

/-- The address that is read is the encoded number, wrapped around. -/
theorem ends_readAddress {machine : Machine arch} {address : Nat} {value : Int}
    (there : machine.Holds address (arch.byteOrder.encode arch.addressBytes value)) :
    Ends (readAddress address) machine fun found _ =>
      (found : Int) = value % 2 ^ (8 * arch.addressBytes) % arch.memorySize := by
  apply Ends.of_eq (readAddress_apply address machine)
  rw [← ByteOrder.pow_bytes, ← there.peekNumber_eq]
  exact Int.natCast_emod _ _

/-- An address is stored in its bytes alone, and can be read back. -/
theorem ends_writeAddress (bounded : arch.memorySize ≤ 65536) {value : Nat}
    (inMemory : value < arch.memorySize) (address : Nat) (machine : Machine arch) :
    Ends (writeAddress address value) machine fun _ after =>
      machine.Stored address (arch.byteOrder.encode arch.addressBytes value) after ∧
        Ends (readAddress address) after fun found _ => found = value := by
  apply (ends_writeBytes_encode arch.byteOrder arch.addressBytes_le_memorySize address value
    machine).mono
  intro _ after stored
  constructor
  · exact stored
  · have small : value < 256 ^ arch.addressBytes :=
      Nat.lt_of_lt_of_le inMemory (Architecture.memorySize_le_pow bounded)
    apply Ends.of_eq (readAddress_apply address after)
    rw [stored.there.peekNumber_of_lt small]
    exact Nat.mod_eq_of_lt inMemory

/-- A word is stored in two cells alone, and can be read back. -/
theorem ends_writeWord (fits : 2 ≤ arch.memorySize) (address value : Nat)
    (machine : Machine arch) :
    Ends (writeWord address value) machine fun _ after =>
      machine.Stored address (ByteOrder.big.encode 2 value) after ∧
        Ends (readWord address) after fun found _ => found = value % 2 ^ 16 := by
  apply (ends_writeBytes_encode .big fits address value machine).mono
  intro _ after stored
  constructor
  · exact stored
  · have read := stored.there.peekNumber_eq
    apply Ends.of_eq (readWord_apply address after)
    omega

/--
Every byte of an encoded number is cut out of it by its significance.  Where
the bytes lie that were stored, the number is shown that they can hold.  An
address is read as this number wrapped around; an address in memory is stored in
these bytes, and nowhere else, and read back.  So is a word, up to what two
bytes can hold.
-/
theorem codecs_agree (bounded : arch.memorySize ≤ 65536) (address : Nat) (machine : Machine arch) :
    (∀ (order : ByteOrder) (width : Nat) (value : Int),
      (∀ index < width, (order.encode width value)[index]? =
        some (UInt8.ofInt (value / 256 ^ order.significance width index))) ∧
      (width ≤ arch.memorySize →
        Ends (writeBytes address (order.encode width value)) machine fun _ after =>
          machine.Stored address (order.encode width value) after) ∧
      (machine.Holds address (order.encode width value) →
        (machine.peekNumber order width address : Int) = value % 2 ^ (8 * width))) ∧
    (∀ value : Int, machine.Holds address (arch.byteOrder.encode arch.addressBytes value) →
      Ends (readAddress address) machine fun found _ =>
        (found : Int) = value % 2 ^ (8 * arch.addressBytes) % arch.memorySize) ∧
    (∀ value < arch.memorySize, Ends (writeAddress address value) machine fun _ after =>
      machine.Stored address (arch.byteOrder.encode arch.addressBytes value) after ∧
        Ends (readAddress address) after fun found _ => found = value) ∧
    (2 ≤ arch.memorySize → ∀ value, Ends (writeWord address value) machine fun _ after =>
      machine.Stored address (ByteOrder.big.encode 2 value) after ∧
        Ends (readWord address) after fun found _ => found = value % 2 ^ 16) := by
  refine ⟨fun order width value => ⟨?_, ?_, ?_⟩, ?_, ?_, ?_⟩
  · intro index inside
    exact ByteOrder.getElem?_encode inside order value
  · intro fits
    exact ends_writeBytes_encode order fits address value machine
  · intro there
    rw [there.peekNumber_eq, ByteOrder.pow_bytes]
  · intro value there
    exact ends_readAddress there
  · intro value inMemory
    exact ends_writeAddress bounded inMemory address machine
  · intro fits value
    exact ends_writeWord fits address value machine

/-- The bytes of an address around the end of the memory of Pericles. -/
theorem codecs_agree_around :
    Catalog.pericles.memorySize ≤ 65536 ∧ 0xABC < Catalog.pericles.memorySize ∧
      ∃ after last, writeAddress 4095 0xABC (Machine.new Catalog.pericles) = .ok () after ∧
        after.Holds 4095 [0xBC, 0x0A] ∧ after.peek 1 = 0 ∧
          readAddress 4095 after = .ok 0xABC last := by
  have bounded : Catalog.pericles.memorySize ≤ 65536 := by decide
  have inMemory : 0xABC < Catalog.pericles.memorySize := by decide
  obtain ⟨_, after, writes, stored, _, last, reads, rfl⟩ :=
    (codecs_agree bounded 4095 (Machine.new Catalog.pericles)).2.2.1 0xABC inMemory
  refine ⟨bounded, inMemory, after, last, writes, stored.there, ?_, reads⟩
  rw [stored.elsewhere 1 (by decide)]
  decide +kernel

end Exec

end ClassroomCpu
