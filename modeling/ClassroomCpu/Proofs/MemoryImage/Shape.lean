import ClassroomCpu.MemoryImage

/-!
# What memory images look like

Every row of bytes is an image of a machine or has exactly one defect: its
length is wrong, or else its identifier is no text, or else it names another
machine.
-/

namespace ClassroomCpu.MemoryImage

variable {arch : Architecture} {image bytes : List UInt8}

/-! ## Texts and their bytes -/

/-- The bytes are a text in UTF-8. -/
def IsText (bytes : List UInt8) : Prop :=
  ByteArray.IsValidUTF8 ⟨bytes.toArray⟩

theorem isText_textBytes (text : String) : IsText (textBytes text) :=
  text.isValidUTF8

theorem text?_eq_some_iff {text : String} : text? bytes = some text ↔ textBytes text = bytes := by
  unfold text? String.fromUTF8?
  constructor
  · intro found
    split at found
    · obtain rfl := Option.some.inj found
      rfl
    · contradiction
  · rintro rfl
    have valid : ByteArray.IsValidUTF8 ⟨(textBytes text).toArray⟩ := isText_textBytes text
    rw [dif_pos valid]
    rfl

theorem text?_eq_none_iff : text? bytes = none ↔ ¬ IsText bytes := by
  unfold text? String.fromUTF8? IsText
  split <;> simp_all

theorem textBytes_inj {text other : String} : textBytes text = textBytes other ↔ text = other := by
  constructor
  · intro same
    have found := text?_eq_some_iff.mpr same
    rw [text?_eq_some_iff.mpr rfl] at found
    exact (Option.some.inj found).symm
  · exact congrArg textBytes

/-! ## The parts of an image -/

/-- The bytes of the identifier. -/
def identifierBytes : List UInt8 → List UInt8
  | [] => []
  | length :: rest => rest.take length.toNat

/-- The bytes of the cells. -/
def cellBytes : List UInt8 → List UInt8
  | [] => []
  | length :: rest => rest.drop length.toNat

theorem exists_cell {count : Nat} (size : bytes.length = 2 * (count + 1)) :
    ∃ value padding rest, bytes = value :: padding :: rest ∧ rest.length = 2 * count := by
  rcases bytes with _ | ⟨value, _ | ⟨padding, rest⟩⟩
  · simp at size
  · simp only [List.length_cons, List.length_nil] at size
    omega
  · simp only [List.length_cons] at size
    exact ⟨value, padding, rest, rfl, by omega⟩

/-- The image does not have the length that its first byte and the machine ask for. -/
def WrongSize (arch : Architecture) : List UInt8 → Prop
  | [] => True
  | length :: rest => (length :: rest).length ≠ 1 + length.toNat + 2 * arch.memorySize

/--
A length, as many bytes, which are the identifier of the machine, and two bytes for each of its
cells.
-/
def IsImageOf (arch : Architecture) (image : List UInt8) : Prop :=
  ∃ (length : UInt8) (cells : List UInt8),
    image = length :: (textBytes arch.identifier ++ cells) ∧
      length.toNat = (textBytes arch.identifier).length ∧ cells.length = 2 * arch.memorySize

theorem wrongSize_iff : WrongSize arch image ↔ image.length ≠ expectedSize arch image := by
  cases image with
  | nil =>
      simp only [WrongSize, List.length_nil, expectedSize, true_iff]
      omega
  | cons length rest => rfl

/-- An image of the right length starts with a length, and has two bytes for each cell. -/
theorem exists_of_not_wrongSize (right : ¬ WrongSize arch image) :
    ∃ length rest, image = length :: rest ∧ rest.length = length.toNat + 2 * arch.memorySize := by
  cases image with
  | nil => exact absurd trivial right
  | cons length rest =>
      refine ⟨length, rest, rfl, ?_⟩
      simp only [WrongSize, List.length_cons, ne_eq, Decidable.not_not] at right
      omega

theorem isImageOf_iff : IsImageOf arch image ↔
    ¬ WrongSize arch image ∧ textBytes arch.identifier = identifierBytes image := by
  constructor
  · rintro ⟨length, cells, rfl, number, size⟩
    refine ⟨?_, ?_⟩
    · simp only [WrongSize, List.length_cons, List.length_append, ne_eq, Decidable.not_not]
      omega
    · rw [identifierBytes, number, List.take_left']
      rfl
  · rintro ⟨right, named⟩
    obtain ⟨length, rest, rfl, size⟩ := exists_of_not_wrongSize right
    refine ⟨length, rest.drop length.toNat, ?_, ?_, ?_⟩
    · rw [named, identifierBytes, List.take_append_drop]
    · rw [named, identifierBytes, List.length_take]
      omega
    · rw [List.length_drop]
      omega

theorem IsImageOf.length_cellBytes (isImage : IsImageOf arch image) :
    (cellBytes image).length = 2 * arch.memorySize := by
  obtain ⟨length, cells, rfl, number, size⟩ := isImage
  rw [cellBytes, number, List.drop_left' rfl, size]

/-! ## What is said about an image -/

/-- What an image deserves. -/
inductive Verdict (arch : Architecture) (image : List UInt8) :
    Except ImportError (List UInt8) → Prop
  | wrongSize : WrongSize arch image →
      Verdict arch image (.error (.invalidSize (expectedSize arch image) image.length))
  | noText : ¬ WrongSize arch image → ¬ IsText (identifierBytes image) →
      Verdict arch image (.error .malformed)
  | foreign {other : String} : ¬ WrongSize arch image →
      textBytes other = identifierBytes image → other ≠ arch.identifier →
        Verdict arch image (.error (.identifierMismatch arch.identifier other))
  | own : IsImageOf arch image →
      Verdict arch image (.ok (withoutPadding (cellBytes image)))

theorem verdict_cells (arch : Architecture) (image : List UInt8) :
    Verdict arch image (cells arch image) := by
  unfold cells
  by_cases wrong : WrongSize arch image
  · rw [if_pos (wrongSize_iff.mp wrong)]
    exact .wrongSize wrong
  · rw [if_neg fun size => wrong (wrongSize_iff.mpr size)]
    obtain ⟨length, rest, rfl, size⟩ := exists_of_not_wrongSize wrong
    dsimp only
    split
    · rename_i noText
      exact .noText wrong (text?_eq_none_iff.mp noText)
    · rename_i identifier found
      have named := text?_eq_some_iff.mp found
      split
      · rename_i same
        subst same
        exact .own (isImageOf_iff.mpr ⟨wrong, named⟩)
      · rename_i different
        exact .foreign wrong named different

/-- An image that is no text is not that of a machine. -/
theorem IsImageOf.isText (isImage : IsImageOf arch image) : IsText (identifierBytes image) :=
  (isImageOf_iff.mp isImage).2 ▸ isText_textBytes arch.identifier

theorem IsImageOf.eq_identifier (isImage : IsImageOf arch image) {text : String}
    (named : textBytes text = identifierBytes image) : text = arch.identifier :=
  textBytes_inj.mp (named.trans (isImageOf_iff.mp isImage).2.symm)

/-- No image deserves two verdicts. -/
theorem Verdict.unique {result other : Except ImportError (List UInt8)}
    (verdict : Verdict arch image result) (again : Verdict arch image other) :
    result = other := by
  cases verdict with
  | wrongSize wrong =>
      cases again with
      | wrongSize => rfl
      | noText right | foreign right => exact absurd wrong right
      | own isImage => exact absurd wrong (isImageOf_iff.mp isImage).1
  | noText right noText =>
      cases again with
      | wrongSize wrong => exact absurd wrong right
      | noText => rfl
      | foreign _ named => exact absurd (named ▸ isText_textBytes _) noText
      | own isImage => exact absurd isImage.isText noText
  | foreign right named different =>
      cases again with
      | wrongSize wrong => exact absurd wrong right
      | noText _ noText => exact absurd (named ▸ isText_textBytes _) noText
      | foreign _ namedAgain => rw [textBytes_inj.mp (named.trans namedAgain.symm)]
      | own isImage => exact absurd (isImage.eq_identifier named) different
  | own isImage =>
      cases again with
      | wrongSize wrong => exact absurd wrong (isImageOf_iff.mp isImage).1
      | noText _ noText => exact absurd isImage.isText noText
      | foreign _ named different => exact absurd (isImage.eq_identifier named) different
      | own => rfl

theorem cells_eq_iff {result : Except ImportError (List UInt8)} :
    cells arch image = result ↔ Verdict arch image result := by
  constructor
  · rintro rfl
    exact verdict_cells arch image
  · exact (verdict_cells arch image).unique

end ClassroomCpu.MemoryImage
