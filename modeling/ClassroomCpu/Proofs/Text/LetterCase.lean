import ClassroomCpu.Proofs.Text.Ascii
import ClassroomCpu.Text.Blank
import ClassroomCpu.Text.Lines

/-!
# Texts in lower case

Nothing that is told about a single character, and no number that digits write,
depends on the case of ASCII letters.  Cutting a text at such characters gives
the same pieces in lower case.
-/

namespace ClassroomCpu.Text

/-! ## Characters -/

theorem toLower_of_not_ascii {c : Char} (foreign : ¬ c.toNat < 128) : c.toLower = c := by
  have noCapital : ¬ (c.val ≥ 'A'.val ∧ c.val ≤ 'Z'.val) := by
    have last : 'Z'.val.toNat = 90 := rfl
    rw [UInt32.le_iff_toNat_le, last]
    change ¬ (_ ∧ c.toNat ≤ 90)
    omega
  exact dif_neg noCapital

/-- What is told alike of each ASCII character and its small letter depends on no letter case. -/
theorem toLower_class {α : Type} {classify : Char → α}
    (each : ∀ code < 128, classify (Char.ofNat code).toLower = classify (Char.ofNat code))
    (c : Char) : classify c.toLower = classify c := by
  by_cases ascii : c.toNat < 128
  · exact ascii_cases (motive := fun c => classify c.toLower = classify c) each ascii
  · rw [toLower_of_not_ascii ascii]

@[simp] theorem isAlpha_toLower (c : Char) : c.toLower.isAlpha = c.isAlpha :=
  toLower_class (by decide) c

@[simp] theorem isDigit_toLower (c : Char) : c.toLower.isDigit = c.isDigit :=
  toLower_class (by decide) c

@[simp] theorem isAlphanum_toLower (c : Char) : c.toLower.isAlphanum = c.isAlphanum :=
  toLower_class (by decide) c

@[simp] theorem isBlank_toLower (c : Char) : isBlank c.toLower = isBlank c :=
  toLower_class (by decide) c

@[simp] theorem capital_toLower (c : Char) : capital c.toLower = capital c :=
  toLower_class (by decide) c

@[simp] theorem toLower_toLower (c : Char) : c.toLower.toLower = c.toLower :=
  toLower_class (by decide) c

theorem toLower_of_not_isAlpha {c : Char} (noLetter : c.isAlpha = false) : c.toLower = c := by
  by_cases ascii : c.toNat < 128
  · exact ascii_cases (motive := fun c => c.isAlpha = false → c.toLower = c) (by decide) ascii
      noLetter
  · exact toLower_of_not_ascii ascii

/-- Only the character itself becomes one that is no letter. -/
theorem toLower_eq_iff {c mark : Char} (noLetter : mark.isAlpha = false) :
    c.toLower = mark ↔ c = mark := by
  constructor
  · rintro rfl
    rw [isAlpha_toLower] at noLetter
    exact (toLower_of_not_isAlpha noLetter).symm
  · rintro rfl
    exact toLower_of_not_isAlpha noLetter

/-! ## Pieces of texts -/

section Pieces

variable {test : Char → Bool} (blind : ∀ c : Char, test c.toLower = test c)
include blind

theorem takeWhile_map_toLower (text : List Char) :
    (text.map Char.toLower).takeWhile test = (text.takeWhile test).map Char.toLower := by
  rw [List.takeWhile_map]
  simp only [Function.comp_def, blind]

theorem dropWhile_map_toLower (text : List Char) :
    (text.map Char.toLower).dropWhile test = (text.dropWhile test).map Char.toLower := by
  rw [List.dropWhile_map]
  simp only [Function.comp_def, blind]

/-- Two texts that differ at most in letter case have characters of the same classes. -/
theorem any_of_sameLetters {left right : String} (same : sameLetters left right = true) :
    left.toList.any test = right.toList.any test := by
  have lowered : left.toList.map Char.toLower = right.toList.map Char.toLower :=
    eq_of_beq same
  have tested := congrArg (fun text => text.any test) lowered
  simpa [List.any_map, Function.comp_def, blind] using tested

end Pieces

theorem mem_iff_of_sameLetters {mark : Char} (noLetter : mark.isAlpha = false)
    {left right : String} (same : sameLetters left right = true) :
    mark ∈ left.toList ↔ mark ∈ right.toList := by
  have blind (c : Char) : (mark == c.toLower) = (mark == c) := by
    rw [Bool.eq_iff_iff, beq_iff_eq, beq_iff_eq, eq_comm, toLower_eq_iff noLetter, eq_comm]
  have told := @any_of_sameLetters (mark == ·) blind left right same
  rw [Bool.eq_iff_iff] at told
  simpa using told

theorem trim_map_toLower (text : List Char) :
    trim (text.map Char.toLower) = (trim text).map Char.toLower := by
  simp only [trim, trimStart, trimEnd, dropWhile_map_toLower isBlank_toLower, ← List.map_reverse]

theorem trim_subset (text : List Char) : trim text ⊆ text := by
  intro c member
  have inside := (List.dropWhile_sublist isBlank).subset (List.mem_reverse.mp member)
  exact (List.dropWhile_sublist isBlank).subset (List.mem_reverse.mp inside)

theorem dropReturn_map_toLower (reversed : List Char) :
    dropReturn (reversed.map Char.toLower) = (dropReturn reversed).map Char.toLower := by
  cases reversed with
  | nil => rfl
  | cons c reversed =>
      by_cases ends : c = '\r'
      · subst ends
        rfl
      · have endsNot : c.toLower ≠ '\r' := mt (toLower_eq_iff (by decide)).mp ends
        simp [dropReturn, ends, endsNot]

theorem linesFrom_map_toLower (current text : List Char) :
    linesFrom (current.map Char.toLower) (text.map Char.toLower) =
      (linesFrom current text).map (List.map Char.toLower) := by
  induction text generalizing current with
  | nil => cases current <;> simp [linesFrom]
  | cons c text induction =>
      have feed : c.toLower = '\n' ↔ c = '\n' := toLower_eq_iff (by decide)
      have fresh := induction []
      have longer := induction (c :: current)
      simp only [List.map_nil, List.map_cons] at fresh longer
      simp only [List.map_cons, linesFrom, feed]
      split
      · simp only [fresh, dropReturn_map_toLower, List.map_cons, List.map_reverse]
      · exact longer

/-- Every character of a line comes from the text. -/
theorem mem_of_mem_linesFrom {current text line : List Char}
    (member : line ∈ linesFrom current text) : ∀ c ∈ line, c ∈ current ∨ c ∈ text := by
  have shorter : ∀ reversed c, c ∈ dropReturn reversed → c ∈ reversed := by
    intro reversed c inside
    unfold dropReturn at inside
    split at inside
    · exact List.mem_cons_of_mem _ inside
    · exact inside
  induction text generalizing current with
  | nil =>
      intro c inside
      rw [linesFrom] at member
      split at member
      · simp at member
      · obtain rfl := List.mem_singleton.mp member
        exact .inl (List.mem_reverse.mp inside)
  | cons first text induction =>
      intro c inside
      rw [linesFrom] at member
      split at member
      · rcases List.mem_cons.mp member with rfl | later
        · exact .inl (shorter current c (List.mem_reverse.mp inside))
        · rcases induction later c inside with none | there
          · simp at none
          · exact .inr (List.mem_cons_of_mem _ there)
      · rcases induction member c inside with before | there
        · rcases List.mem_cons.mp before with rfl | earlier
          · exact .inr (by simp)
          · exact .inl earlier
        · exact .inr (List.mem_cons_of_mem _ there)

/-! ## Numbers -/

theorem digitsFrom?_map_toLower {base : Nat} (blind : ∀ c : Char, digit? base c.toLower =
    digit? base c) (start : Nat) (digits : List Char) :
    digitsFrom? base start (digits.map Char.toLower) = digitsFrom? base start digits := by
  induction digits generalizing start with
  | nil => rfl
  | cons c digits induction =>
      simp only [List.map_cons, digitsFrom?, blind, induction]

theorem natural?_map_toLower {base : Nat} (blind : ∀ c : Char, digit? base c.toLower =
    digit? base c) (digits : List Char) :
    natural? base (digits.map Char.toLower) = natural? base digits := by
  simp only [natural?, List.isEmpty_map, digitsFrom?_map_toLower blind]

/-! ## Strings -/

@[simp] theorem toList_lowercase (text : String) :
    (lowercase text).toList = text.toList.map Char.toLower := by
  simp [lowercase]

theorem lowercase_ofList (text : List Char) :
    lowercase (String.ofList text) = String.ofList (text.map Char.toLower) := by
  rw [lowercase, String.toList_ofList]

@[simp] theorem isEmpty_lowercase (text : String) : (lowercase text).isEmpty = text.isEmpty := by
  rw [Bool.eq_iff_iff, String.isEmpty_iff, String.isEmpty_iff, ← String.toList_inj,
    ← String.toList_inj, toList_lowercase]
  simp

@[simp] theorem lowercase_lowercase (text : String) :
    lowercase (lowercase text) = lowercase text := by
  rw [lowercase, toList_lowercase, List.map_map, lowercase]
  simp only [Function.comp_def, toLower_toLower]

@[simp] theorem uppercase_lowercase (text : String) :
    uppercase (lowercase text) = uppercase text := by
  rw [uppercase, toList_lowercase, List.flatMap_map, uppercase]
  simp only [capital_toLower]

@[simp] theorem sameLetters_lowercase_left (left right : String) :
    sameLetters (lowercase left) right = sameLetters left right := by
  simp [sameLetters, Function.comp_def]

@[simp] theorem sameLetters_lowercase_right (left right : String) :
    sameLetters left (lowercase right) = sameLetters left right := by
  simp [sameLetters, Function.comp_def]

theorem sameLetters_iff {left right : String} :
    sameLetters left right = true ↔ lowercase left = lowercase right := by
  rw [sameLetters, beq_iff_eq, lowercase, lowercase, String.ofList_inj]

end ClassroomCpu.Text
