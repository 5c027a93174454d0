import Std.Data.TreeMap

/-!
# Source maps

Which line of a program gave the value of a memory cell, and which cell a line
gave first.  Lines are counted from zero.
-/

namespace ClassroomCpu

/-- The lines of addresses, and the first addresses of lines. -/
structure SourceMap where
  /-- The line that gave the value of an address last. -/
  lines : Std.TreeMap Nat Nat
  /-- The address that a line gave first. -/
  addresses : Std.TreeMap Nat Nat

namespace SourceMap

/-- The map of a program without values. -/
def empty : SourceMap :=
  ⟨∅, ∅⟩

/-- Records that a line gave the value of an address. -/
def insert (map : SourceMap) (address line : Nat) : SourceMap where
  lines := map.lines.insert address line
  addresses := map.addresses.insertIfNew line address

/-- The map of the given pairs of an address and a line, recorded in order. -/
def ofList (pairs : List (Nat × Nat)) : SourceMap :=
  pairs.foldl (fun map pair => map.insert pair.1 pair.2) empty

/-- The line that gave the value of an address. -/
def line? (map : SourceMap) (address : Nat) : Option Nat :=
  map.lines[address]?

theorem line?_insert (map : SourceMap) (address line other : Nat) :
    (map.insert address line).line? other =
      if address = other then some line else map.line? other := by
  simp only [insert, line?, Std.TreeMap.getElem?_insert, Std.compare_eq_iff_eq (α := Nat)]

@[simp] theorem line?_empty (address : Nat) : empty.line? address = none := by
  simp [line?, empty]

/-- The first address whose value a line gave. -/
def address? (map : SourceMap) (line : Nat) : Option Nat :=
  map.addresses[line]?

/-- The address that a line gives first stays. -/
theorem address?_insert (map : SourceMap) (address line other : Nat) :
    (map.insert address line).address? other =
      if line = other then (map.address? other).or (some address) else map.address? other := by
  simp only [insert, address?, Std.TreeMap.getElem?_insertIfNew,
    Std.compare_eq_iff_eq (α := Nat)]
  by_cases same : line = other
  · subst same
    cases found : map.addresses[line]? with
    | none =>
        have absent : line ∉ map.addresses := by simpa using found
        simp [absent]
    | some earlier =>
        have there : line ∈ map.addresses := by
          rw [Std.TreeMap.mem_iff_isSome_getElem?, found]
          rfl
        simp [there]
  · simp [same]

@[simp] theorem address?_empty (line : Nat) : empty.address? line = none := by
  simp [address?, empty]

/-- The number of addresses. -/
def size (map : SourceMap) : Nat :=
  map.lines.size

/-- Whether no address has a line. -/
def isEmpty (map : SourceMap) : Bool :=
  map.lines.isEmpty

/-- Whether two maps hold the same in both directions. -/
def same (map other : SourceMap) : Bool :=
  map.lines.toList == other.lines.toList && map.addresses.toList == other.addresses.toList

end SourceMap

end ClassroomCpu
