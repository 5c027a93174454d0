import ClassroomCpu.Proofs.MemoryImage.Takeover
import ClassroomCpu.Catalog.Neander

/-!
# Memory images there and back

A machine writes an image of itself that every machine of its kind takes over,
whatever that one held before.  An image that was taken over is written again as
it was, but with empty padding.
-/

namespace ClassroomCpu

namespace MemoryImage

variable {arch : Architecture}

/-! ## Padding -/

theorem length_withPadding :
    ∀ values : List UInt8, (withPadding values).length = 2 * values.length
  | [] => rfl
  | _ :: values => by
      simp only [withPadding, List.length_cons, length_withPadding values]
      omega

theorem withoutPadding_withPadding :
    ∀ values : List UInt8, withoutPadding (withPadding values) = values
  | [] => rfl
  | _ :: values => by rw [withPadding, withoutPadding, withoutPadding_withPadding values]

/-- Without its padding and with padding again, every second byte becomes zero. -/
theorem withPadding_withoutPadding {count : Nat} {bytes : List UInt8}
    (size : bytes.length = 2 * count) :
    withPadding (withoutPadding bytes) =
      bytes.mapIdx fun position byte => if position % 2 = 1 then 0 else byte := by
  induction count generalizing bytes with
  | zero =>
      obtain rfl : bytes = [] := List.length_eq_zero_iff.mp (by omega)
      rfl
  | succ count induction =>
      obtain ⟨value, padding, rest, rfl, behind⟩ := exists_cell size
      rw [withoutPadding, withPadding, induction behind, List.mapIdx_cons, List.mapIdx_cons]
      -- Two places on, a byte is padding exactly if it was before.
      simp only [Nat.zero_mod, Nat.zero_ne_one, if_false, Nat.zero_add, Nat.add_assoc,
        Nat.reduceAdd, Nat.add_mod_right, Nat.reduceMod, if_true]

/-- The place of a byte of padding: the second, fourth and so on behind the identifier. -/
def IsPadding (arch : Architecture) (position : Nat) : Prop :=
  1 + (textBytes arch.identifier).length ≤ position ∧
    (position - (1 + (textBytes arch.identifier).length)) % 2 = 1

instance (arch : Architecture) (position : Nat) : Decidable (IsPadding arch position) :=
  inferInstanceAs (Decidable (_ ∧ _))

/-- The image with nothing in its padding. -/
def clearPadding (arch : Architecture) (image : List UInt8) : List UInt8 :=
  image.mapIdx fun position byte => if IsPadding arch position then 0 else byte

/-- What stands before the cells is no padding. -/
theorem clearPadding_append {front cells : List UInt8}
    (size : front.length = 1 + (textBytes arch.identifier).length) :
    clearPadding arch (front ++ cells) =
      front ++ cells.mapIdx fun position byte => if position % 2 = 1 then 0 else byte := by
  rw [clearPadding, List.mapIdx_append]
  congr 1
  · refine List.ext_getElem List.length_mapIdx fun position inside _ => ?_
    rw [List.length_mapIdx] at inside
    rw [List.getElem_mapIdx, if_neg]
    rintro ⟨behind, _⟩
    omega
  · refine congrArg (fun clear => cells.mapIdx clear) (funext fun position => funext fun byte => ?_)
    have place : IsPadding arch (position + front.length) ↔ position % 2 = 1 := by
      rw [IsPadding, size, Nat.add_sub_cancel]
      exact and_iff_right (by omega)
    simp only [place]

/-! ## What a machine writes -/

/-- The length of the identifier fits into the first byte. -/
theorem isImageOf_exportImage (machine : Machine arch)
    (short : (textBytes arch.identifier).length ≤ 255) :
    IsImageOf arch machine.exportImage := by
  refine ⟨_, _, rfl, ?_, ?_⟩
  · rw [UInt8.toNat_ofNat', Nat.mod_eq_of_lt (by omega)]
  · rw [length_withPadding, Vector.length_toList]

theorem cellBytes_exportImage (machine : Machine arch)
    (short : (textBytes arch.identifier).length ≤ 255) :
    cellBytes machine.exportImage = withPadding machine.memory.toList := by
  rw [Machine.exportImage, List.cons_append, cellBytes, UInt8.toNat_ofNat',
    Nat.mod_eq_of_lt (by omega), List.drop_left]

end MemoryImage

namespace Machine

variable {arch : Architecture} {machine after : Machine arch} {image : List UInt8}

theorem length_exportImage (machine : Machine arch) :
    machine.exportImage.length = imageSize arch := by
  rw [exportImage, List.length_append, List.length_cons, MemoryImage.length_withPadding,
    Vector.length_toList, imageSize, Nat.add_comm 1]

/-- The image decides all of memory. -/
theorem TakenOver.toList_memory (taken : machine.TakenOver image after)
    (isImage : MemoryImage.IsImageOf arch image) :
    after.memory.toList = MemoryImage.withoutPadding (MemoryImage.cellBytes image) := by
  have bytes := isImage.length_cellBytes
  have values : (MemoryImage.withoutPadding (MemoryImage.cellBytes image)).length =
      arch.memorySize := by
    rw [MemoryImage.length_withoutPadding, bytes]
    omega
  refine List.ext_getElem? fun position => ?_
  by_cases inside : position < arch.memorySize
  · rw [MemoryImage.getElem?_withoutPadding _ _ (by omega), taken.memory ⟨position, inside⟩,
      Vector.getElem?_toList, Vector.getElem?_eq_getElem inside]
    rfl
  · rw [List.getElem?_eq_none (by rw [Vector.length_toList]; omega),
      List.getElem?_eq_none (by omega)]

theorem TakenOver.exportImage_eq (taken : machine.TakenOver image after)
    (isImage : MemoryImage.IsImageOf arch image) :
    after.exportImage = MemoryImage.clearPadding arch image := by
  have memory := taken.toList_memory isImage
  have bytes := isImage.length_cellBytes
  obtain ⟨length, cells, rfl, number, size⟩ := isImage
  rw [MemoryImage.cellBytes, number, List.drop_left] at memory
  have first : UInt8.ofNat (MemoryImage.textBytes arch.identifier).length = length := by
    rw [← number, UInt8.ofNat_toNat]
  rw [exportImage, memory, first, MemoryImage.withPadding_withoutPadding size,
    ← List.cons_append, MemoryImage.clearPadding_append]
  rw [List.length_cons, Nat.add_comm]

/--
What a machine writes has the announced length and gives every machine of its kind the same
memory and the same image; an accepted image is written again with empty padding.
-/
theorem images_roundTrip (machine other : Machine arch)
    (short : (MemoryImage.textBytes arch.identifier).length ≤ 255) :
    machine.exportImage.length = imageSize arch ∧
    (∃ after, other.importImage machine.exportImage = .ok after ∧
      after.memory = machine.memory ∧ after.exportImage = machine.exportImage) ∧
    ∀ image after, other.importImage image = .ok after →
      after.exportImage = MemoryImage.clearPadding arch image := by
  refine ⟨machine.length_exportImage, ?_, ?_⟩
  · have isImage := MemoryImage.isImageOf_exportImage machine short
    obtain ⟨after, accepted, taken⟩ := importImage_of_isImageOf other isImage
    have memory : after.memory = machine.memory := by
      have written := taken.toList_memory isImage
      rw [MemoryImage.cellBytes_exportImage machine short,
        MemoryImage.withoutPadding_withPadding] at written
      exact Vector.toList_inj.mp written
    refine ⟨after, accepted, memory, ?_⟩
    rw [exportImage, exportImage, memory]
  · intro image after accepted
    obtain ⟨isImage, taken⟩ := takenOver_of_importImage accepted
    exact taken.exportImage_eq isImage

/-- The identifier of Neander has three letters. -/
theorem images_roundTrip_neander :
    let machine := (new Catalog.neander).poke 7 200
    let other := (new Catalog.neander).poke 200 7
    (MemoryImage.textBytes Catalog.neander.identifier).length ≤ 255 ∧
    machine.exportImage.length = 516 ∧
    (∃ after, other.importImage machine.exportImage = .ok after ∧
      after.memory = machine.memory ∧ after.exportImage = machine.exportImage) ∧
    ∀ image after, other.importImage image = .ok after →
      after.exportImage = MemoryImage.clearPadding Catalog.neander image :=
  ⟨by decide, images_roundTrip _ _ (by decide)⟩

end Machine

end ClassroomCpu
