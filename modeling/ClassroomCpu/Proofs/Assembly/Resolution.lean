import ClassroomCpu.Proofs.Text.Ascii
import Mathlib.Data.List.TakeWhile

/-!
# Words under a growing label table

Labels are only ever added while a program is gone through.  A word that stood
for a number under the labels so far stands for the same number under all
labels, with one exception: a hexadecimal literal such as `h10` is at the same
time a legal label, and turns into that label once it is defined.
-/

namespace ClassroomCpu.Assembly

namespace LabelTable

/-- Every key of the table is a legal label. -/
def WellFormed (labels : LabelTable) : Prop :=
  ∀ entry ∈ labels, isLabel entry.1.toList = true

/-- Every label of a table is in the later table, at the same address. -/
def GrowsTo (labels later : LabelTable) : Prop :=
  ∀ name address, labels.find? name = some address → later.find? name = some address

theorem GrowsTo.refl (labels : LabelTable) : labels.GrowsTo labels :=
  fun _ _ found => found

theorem GrowsTo.trans {labels middle later : LabelTable}
    (first : labels.GrowsTo middle) (second : middle.GrowsTo later) : labels.GrowsTo later :=
  fun name address found => second name address (first name address found)

theorem wellFormed_define {labels : LabelTable} {name : String} {address : Nat}
    (wellFormed : labels.WellFormed) (label : isLabel name.toList = true) :
    (labels.define name address).WellFormed := by
  intro entry member
  rcases List.mem_cons.mp member with here | earlier
  · subst here
    exact isLabel_uppercase label
  · exact wellFormed entry earlier

/-- A new label hides no label that is there already. -/
theorem growsTo_define {labels : LabelTable} {name : String} {address : Nat}
    (isNew : labels.find? name = none) : labels.GrowsTo (labels.define name address) := by
  intro other value found
  have different : (Text.uppercase other == Text.uppercase name) = false := by
    apply beq_eq_false_iff_ne.mpr
    intro same
    rw [find?, same, ← find?, isNew] at found
    exact absurd found (by simp)
  rw [find?] at found ⊢
  rw [define, List.lookup_cons, different]
  exact found

theorem find?_define_self (labels : LabelTable) (name : String) (address : Nat) :
    (labels.define name address).find? name = some address := by
  simp [find?, define]

theorem find?_define {labels : LabelTable} {name other : String} {address value : Nat}
    (found : (labels.define name address).find? other = some value) :
    value = address ∨ labels.find? other = some value := by
  rw [find?, define, List.lookup_cons] at found
  split at found
  · exact .inl (Option.some.inj found).symm
  · exact .inr found

theorem mem_of_find? {labels : LabelTable} {name : String} {address : Nat}
    (found : labels.find? name = some address) : (Text.uppercase name, address) ∈ labels := by
  obtain ⟨before, behind, split, _⟩ := List.lookup_eq_some_iff.mp found
  simp [split]

theorem notMem_keys_of_find? {labels : LabelTable} {name : String}
    (missing : labels.find? name = none) : Text.uppercase name ∉ labels.map Prod.fst := by
  intro among
  obtain ⟨entry, member, same⟩ := List.mem_map.mp among
  simpa [same] using List.lookup_eq_none_iff.mp missing entry member

/-- A name that a well-formed table knows is a label in upper case. -/
theorem isLabel_of_find? {labels : LabelTable} (wellFormed : labels.WellFormed)
    {name : String} {address : Nat} (found : labels.find? name = some address) :
    isLabel (Text.uppercase name).toList = true :=
  wellFormed (Text.uppercase name, address) (mem_of_find? found)

end LabelTable

/-! ## Literals and labels -/

/-- No sign is a digit. -/
theorem digit?_of_isSign {base : Nat} {c : Char} (sign : isSign c = true) :
    Text.digit? base c = none := by
  have signs : c = '+' ∨ c = '-' := by simpa [isSign] using sign
  rcases signs with rfl | rfl <;> simp [Text.digit?]

theorem not_isSign_of_digitsFrom? {base start value : Nat} {digits : List Char}
    (read : Text.digitsFrom? base start digits = some value) :
    ∀ c ∈ digits, isSign c = false := by
  induction digits generalizing start with
  | nil => simp
  | cons c rest induction =>
      cases digit : Text.digit? base c with
      | none => simp [Text.digitsFrom?, digit] at read
      | some d =>
          simp only [Text.digitsFrom?, digit] at read
          intro other member
          rcases List.mem_cons.mp member with here | later
          · subst here
            cases sign : isSign other with
            | false => rfl
            | true => simp [digit?_of_isSign sign] at digit
          · exact induction read other later

theorem not_isSign_of_magnitude? {text : List Char} {value : Nat}
    (read : magnitude? text = some value) : ∀ c ∈ text, isSign c = false := by
  cases text with
  | nil => simp
  | cons first rest =>
      obtain ⟨number, _⟩ := Option.filter_eq_some_iff.mp read
      by_cases hexadecimal : first = 'h' ∨ first = 'H'
      · simp only [hexadecimal, if_true, Text.natural?, Option.ite_none_left_eq_some] at number
        have digits := not_isSign_of_digitsFrom? number.2
        intro c member
        rcases List.mem_cons.mp member with here | later
        · subst here
          rcases hexadecimal with rfl | rfl <;> decide
        · exact digits c later
      · simp only [hexadecimal, if_false, Text.natural?, Option.ite_none_left_eq_some] at number
        exact not_isSign_of_digitsFrom? number.2

/-- The three ways to write a literal: behind a minus, behind a plus, and without a sign. -/
theorem literal?_eq_some {text : List Char} {value : Int} (read : literal? text = some value) :
    ∃ magnitude : Nat,
      (∃ digits, text = '-' :: digits ∧ magnitude? digits = some magnitude ∧
        value = -(magnitude : Int)) ∨
      (∃ digits, text = '+' :: digits ∧ magnitude? digits = some magnitude ∧
        value = magnitude) ∨
      (magnitude? text = some magnitude ∧ value = magnitude) := by
  unfold literal? at read
  split at read
  · rename_i digits
    cases magnitude : magnitude? digits with
    | none => simp [magnitude] at read
    | some number =>
        simp only [magnitude] at read
        exact ⟨number, .inl ⟨digits, rfl, magnitude, (Option.some.inj read).symm⟩⟩
  · rename_i digits
    cases magnitude : magnitude? digits with
    | none => simp [magnitude] at read
    | some number =>
        simp only [magnitude] at read
        exact ⟨number, .inr (.inl ⟨digits, rfl, magnitude, (Option.some.inj read).symm⟩)⟩
  · cases magnitude : magnitude? text with
    | none => simp [magnitude] at read
    | some number =>
        simp only [magnitude] at read
        exact ⟨number, .inr (.inr ⟨rfl, (Option.some.inj read).symm⟩)⟩

/-- A literal has no sign behind its first character. -/
theorem not_isSign_of_literal? {first : Char} {rest : List Char} {value : Int}
    (read : literal? (first :: rest) = some value) : ∀ c ∈ rest, isSign c = false := by
  obtain ⟨magnitude, minus | plus | unsigned⟩ := literal?_eq_some read
  · obtain ⟨digits, split, magnitudeRead, _⟩ := minus
    obtain ⟨rfl, rfl⟩ := List.cons.inj split
    exact not_isSign_of_magnitude? magnitudeRead
  · obtain ⟨digits, split, magnitudeRead, _⟩ := plus
    obtain ⟨rfl, rfl⟩ := List.cons.inj split
    exact not_isSign_of_magnitude? magnitudeRead
  · intro c member
    exact not_isSign_of_magnitude? unsigned.1 c (by simp [member])

/-- A literal without a sign is not negative. -/
theorem literal?_nonneg {text : List Char} {value : Int} (read : literal? text = some value)
    (unsigned : ∀ c ∈ text, isSign c = false) : 0 ≤ value := by
  obtain ⟨magnitude, minus | plus | plain⟩ := literal?_eq_some read
  · obtain ⟨digits, rfl, _⟩ := minus
    have sign := unsigned '-' (by simp)
    simp [isSign] at sign
  · obtain ⟨digits, rfl, _⟩ := plus
    have sign := unsigned '+' (by simp)
    simp [isSign] at sign
  · rw [plain.2]
    exact Int.natCast_nonneg magnitude

/-! ## Cutting at a sign -/

theorem cutAtSign?_eq_none {text : List Char} (unsigned : ∀ c ∈ text, isSign c = false) :
    cutAtSign? text = none := by
  cases text with
  | nil => rfl
  | cons first rest =>
      have allPassed : rest.reverse.dropWhile (fun c => !isSign c) = [] := by
        rw [List.dropWhile_eq_nil_iff]
        intro c member
        simp [unsigned c (by simp [List.mem_reverse.mp member])]
      simp [cutAtSign?, allPassed]

/-- A text that is cut at a sign is no literal. -/
theorem literal?_eq_none_of_cutAtSign? {text : List Char} {pieces : List Char × List Char}
    (cut : cutAtSign? text = some pieces) : literal? text = none := by
  cases text with
  | nil => simp [cutAtSign?] at cut
  | cons first rest =>
      cases read : literal? (first :: rest) with
      | none => rfl
      | some value =>
          have unsigned := not_isSign_of_literal? read
          have allPassed : rest.reverse.dropWhile (fun c => !isSign c) = [] := by
            rw [List.dropWhile_eq_nil_iff]
            intro c member
            simp [unsigned c (List.mem_reverse.mp member)]
          simp [cutAtSign?, allPassed] at cut

/-- A literal is not cut. -/
theorem cutAtSign?_of_literal? {text : List Char} {value : Int}
    (read : literal? text = some value) : cutAtSign? text = none := by
  cases cut : cutAtSign? text with
  | none => rfl
  | some pieces => simp [literal?_eq_none_of_cutAtSign? cut] at read

/-! ## The number of a word under two tables -/

/--
The exception: a literal of one value that is no label yet, and is a label at
another address later.
-/
def ReadTwoWays (labels later : LabelTable) (word : String) : Prop :=
  ∃ (value : Int) (address : Nat),
    labels.find? word = none ∧ literal? word.toList = some value ∧
      later.find? word = some address ∧ value ≠ address

/-- A literal that becomes a label is not negative, and the label comes from the bare word. -/
theorem resolve?_of_becomes_label {labels later : LabelTable} (wellFormed : later.WellFormed)
    {word : String} {value : Int} {address : Nat} (unknown : labels.find? word = none)
    (read : literal? word.toList = some value) (found : later.find? word = some address) :
    0 ≤ value ∧ resolve? labels word = some ⟨value, false⟩ ∧
      resolve? later word = some ⟨address, true⟩ := by
  have unsigned := not_isSign_of_isLabel_uppercase (LabelTable.isLabel_of_find? wellFormed found)
  refine ⟨literal?_nonneg read unsigned, ?_, ?_⟩
  · simp [resolve?, cutAtSign?_eq_none unsigned, resolvePlain?, unknown, read]
  · simp [resolve?, cutAtSign?_eq_none unsigned, resolvePlain?, found]

/-- A literal that no label hides is read as one. -/
theorem resolve?_of_literal? {labels : LabelTable} {word : String} {value : Int}
    (unknown : labels.find? word = none) (read : literal? word.toList = some value) :
    resolve? labels word = some ⟨value, false⟩ := by
  simp [resolve?, cutAtSign?_of_literal? read, resolvePlain?, unknown, read]

/-- A word keeps what it stands for, unless it is a literal that becomes a label. -/
theorem resolve?_of_growsTo {labels later : LabelTable} (wellFormed : labels.WellFormed)
    (grows : labels.GrowsTo later) {word : String} {resolved : Resolved}
    (found : resolve? labels word = some resolved) :
    resolve? later word = some resolved ∨
      (∃ value, literal? word.toList = some value ∧ resolved = ⟨value, false⟩) ∧
        labels.find? word = none ∧ (later.find? word).isSome = true := by
  unfold resolve? at found ⊢
  cases cut : cutAtSign? word.toList with
  | none =>
      simp only [cut] at found ⊢
      unfold resolvePlain? at found ⊢
      cases known : labels.find? word with
      | some address =>
          rw [grows word address known]
          exact .inl (by simpa [known] using found)
      | none =>
          simp only [known] at found
          obtain ⟨value, read, rfl⟩ := Option.map_eq_some_iff.mp found
          cases knownLater : later.find? word with
          | none => exact .inl (by simp [read])
          | some address => exact .inr ⟨⟨value, read, rfl⟩, rfl, rfl⟩
  | some pieces =>
      obtain ⟨name, offset⟩ := pieces
      simp only [cut] at found ⊢
      cases known : labels.find? (String.ofList name) with
      | some address =>
          rw [grows _ address known]
          exact .inl (by simpa [known] using found)
      | none =>
          -- the whole word holds a sign: it is neither a label nor a literal
          simp only [known, resolvePlain?] at found
          cases whole : labels.find? word with
          | some address =>
              have unsigned :=
                not_isSign_of_isLabel_uppercase (LabelTable.isLabel_of_find? wellFormed whole)
              simp [cutAtSign?_eq_none unsigned] at cut
          | none => simp [whole, literal?_eq_none_of_cutAtSign? cut] at found

/-- A word keeps its number while the table grows, unless it is read in two ways. -/
theorem resolve?_value_of_growsTo {labels later : LabelTable} (wellFormed : labels.WellFormed)
    (grows : labels.GrowsTo later) {word : String} {resolved : Resolved}
    (found : resolve? labels word = some resolved)
    (once : ¬ ReadTwoWays labels later word) :
    ∃ resolvedLater, resolve? later word = some resolvedLater ∧
      resolvedLater.value = resolved.value := by
  rcases resolve?_of_growsTo wellFormed grows found with
    same | ⟨⟨value, read, rfl⟩, unknown, becomes⟩
  · exact ⟨resolved, same, rfl⟩
  · obtain ⟨address, known⟩ := Option.isSome_iff_exists.mp becomes
    refine ⟨⟨address, true⟩, by
      simp [resolve?, cutAtSign?_of_literal? read, resolvePlain?, known], ?_⟩
    by_cases same : value = address
    · exact same.symm
    · exact absurd ⟨value, address, unknown, read, known, same⟩ once

end ClassroomCpu.Assembly
