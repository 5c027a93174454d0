import ClassroomCpu.Assembly.LabelTable
import ClassroomCpu.Assembly.SourceLine
import ClassroomCpu.Proofs.Assembly.CheckedText
import ClassroomCpu.Proofs.Assembly.Resolution

/-!
# Words that stand for numbers, with checks

The number of a word is worked out in words of 64 bits, and the word may be cut
at a sign.  Here the cut and every number are checked: a number traps if it
does not fit.  As long as no literal of a program exceeds the sixty-second
power of two, none does.
-/

namespace ClassroomCpu.Assembly

/-! ## Literals of a program -/

/-- The magnitude that the literals of a program may have. -/
def literalLimit : Nat :=
  powerOfTwo 62

/-- The numbers that a token writes: a literal, or an offset behind a name. -/
def Token.literals : Token → List Int
  | .word text =>
      (literal? text.toList).toList ++
        ((cutAtSign? text.toList).bind fun pieces => literal? pieces.2).toList
  | _ => []

/-- The numbers that the statement of a line writes. -/
def SourceLine.literals (line : SourceLine) : List Int :=
  match Token.lex line.statement.toList with
  | .ok tokens => tokens.flatMap Token.literals
  | .error _ => []

/-- The numbers that a program writes. -/
def literalsOf (source : String) : List Int :=
  (SourceLine.ofSource source).flatMap SourceLine.literals

namespace Checked

open Text

/-! ## Words -/

/-- A number as a word of 64 bits with a sign. -/
def signed (value : Int) : Checked Int :=
  if -literalBound ≤ value ∧ value < literalBound then .ok value else .error (.overflow value)

/-- A number as a word of 64 bits without a sign. -/
def unsigned (value : Int) : Checked Nat :=
  if 0 ≤ value ∧ value < 2 * literalBound then .ok value.toNat else .error (.overflow value)

theorem signed_eq {value : Int} (small : value.natAbs < literalBound) :
    signed value = .ok value := by
  unfold signed
  rw [if_pos (by omega)]

theorem unsigned_eq {value : Nat} (small : value < 2 * literalBound) :
    unsigned value = .ok value := by
  unfold unsigned
  rw [if_pos (by omega), Int.toNat_natCast]

/-! ## Numbers of words -/

/-- The number that a literal writes. -/
def literal? (text : List Char) : Checked (Option Int) :=
  if (bytes text).head? = some (asciiByte '-') then do
    let (_, digits) ← cutAt text 1
    match magnitude? digits with
    | some magnitude => return some (← signed (-magnitude))
    | none => return none
  else if (bytes text).head? = some (asciiByte '+') then do
    let (_, digits) ← cutAt text 1
    return (magnitude? digits).map fun (magnitude : Nat) => (magnitude : Int)
  else return (magnitude? text).map fun (magnitude : Nat) => (magnitude : Int)

/-- The place of the last sign of a text. -/
def lastSign? : List Char → Option Nat
  | [] => none
  | c :: rest =>
      match lastSign? rest with
      | some place => some ((String.utf8EncodeChar c).length + place)
      | none => if isSign c then some 0 else none

/-- The number of a label or of a literal. -/
def resolvePlain? (labels : LabelTable) (text : String) : Checked (Option Resolved) :=
  match labels.find? text with
  | some address => .ok (some ⟨address, true⟩)
  | none => do
      let value ← literal? text.toList
      return value.map fun value => ⟨value, false⟩

/-- The number of a word, which may be cut at its last sign behind the first byte. -/
def resolve? (labels : LabelTable) (text : String) : Checked (Option Resolved) :=
  match (cutAt? text.toList 1).bind fun pieces => lastSign? pieces.2 with
  | none => resolvePlain? labels text
  | some place => do
      let (name, offset) ← cutAt text.toList (place + 1)
      match labels.find? (String.ofList name) with
      | none => resolvePlain? labels text
      | some address =>
          match ← literal? offset with
          | some offset => return some ⟨← signed (address + offset), true⟩
          | none => return none

theorem magnitude?_lt {text : List Char} {magnitude : Nat}
    (read : magnitude? text = some magnitude) : magnitude < literalBound := by
  obtain ⟨_, small⟩ := Option.filter_eq_some_iff.mp read
  simpa using small

theorem literal?_eq (text : List Char) : literal? text = .ok (Assembly.literal? text) := by
  have starts : ∀ c : Char, c.toNat < 128 →
      ((bytes text).head? = some (asciiByte c) ↔ text.head? = some c) :=
    fun c ascii => ByteScan.head?_bytes ascii text
  unfold literal?
  rw [if_congr (starts '-' (by decide)) rfl rfl, if_congr (starts '+' (by decide)) rfl rfl]
  split
  · rename_i minus
    obtain ⟨digits, rfl⟩ := List.head?_eq_some_iff.mp minus
    rw [cutAt, cutAt?_one (by decide), ok_bind]
    cases read : magnitude? digits with
    | none => simp [Assembly.literal?, read, pure, Except.pure]
    | some magnitude =>
        have small := magnitude?_lt read
        have fits : signed (-(magnitude : Int)) = .ok (-(magnitude : Int)) := signed_eq (by omega)
        simp [Assembly.literal?, read, fits, pure, Except.pure]
  · split
    · rename_i plus
      obtain ⟨digits, rfl⟩ := List.head?_eq_some_iff.mp plus
      rw [cutAt, cutAt?_one (by decide), ok_bind]
      cases read : magnitude? digits <;> simp [Assembly.literal?, read, pure, Except.pure]
    · rename_i noMinus noPlus
      have noSign : (∀ digits, text ≠ '-' :: digits) ∧ ∀ digits, text ≠ '+' :: digits := by
        constructor
        all_goals
          rintro digits rfl
          simp_all
      rw [Assembly.literal?.eq_3 text noSign.1 noSign.2]
      cases magnitude? text <;> rfl

theorem resolvePlain?_eq (labels : LabelTable) (text : String) :
    resolvePlain? labels text = .ok (Assembly.resolvePlain? labels text) := by
  unfold resolvePlain? Assembly.resolvePlain?
  cases labels.find? text with
  | some address => rfl
  | none =>
      rw [literal?_eq]
      rfl

/-- A text holds no sign, or it has a last one. -/
theorem exists_lastSign (text : List Char) :
    (∀ c ∈ text, isSign c = false) ∨
      ∃ front sign back, text = front ++ sign :: back ∧ isSign sign = true ∧
        ∀ c ∈ back, isSign c = false := by
  induction text with
  | nil => exact .inl (by simp)
  | cons c rest induction =>
      rcases induction with unsigned | ⟨front, sign, back, rfl, signs, unsigned⟩
      · cases here : isSign c with
        | true => exact .inr ⟨[], c, rest, rfl, here, unsigned⟩
        | false => exact .inl (by simpa [here] using unsigned)
      · exact .inr ⟨c :: front, sign, back, rfl, signs, unsigned⟩

theorem lastSign?_eq_none {text : List Char} (unsigned : ∀ c ∈ text, isSign c = false) :
    lastSign? text = none := by
  induction text with
  | nil => rfl
  | cons c rest induction =>
      simp only [List.forall_mem_cons] at unsigned
      simp [lastSign?, induction unsigned.2, unsigned.1]

theorem lastSign?_append {front back : List Char} {sign : Char} (signs : isSign sign = true)
    (unsigned : ∀ c ∈ back, isSign c = false) :
    lastSign? (front ++ sign :: back) = some (bytes front).length := by
  induction front with
  | nil => simp [lastSign?, lastSign?_eq_none unsigned, signs]
  | cons c front induction =>
      rw [List.cons_append, lastSign?, induction, bytes_cons, List.length_append]

theorem cutAtSign?_append {first sign : Char} {front back : List Char}
    (signs : isSign sign = true) (unsigned : ∀ c ∈ back, isSign c = false) :
    cutAtSign? (first :: (front ++ sign :: back)) = some (first :: front, sign :: back) := by
  have passes : ∀ c ∈ back.reverse, (!isSign c) = true := by simpa using unsigned
  have stops : ¬ (!isSign sign) = true := by simp [signs]
  rw [cutAtSign?, List.reverse_append, List.reverse_cons, List.append_assoc,
    List.dropWhile_append_of_pos passes, List.takeWhile_append_of_pos passes]
  simp [signs]

theorem cutAtSign?_cons_eq_none {first : Char} {rest : List Char}
    (unsigned : ∀ c ∈ rest, isSign c = false) : cutAtSign? (first :: rest) = none := by
  have passes : rest.reverse.dropWhile (fun c => !isSign c) = [] := by
    rw [List.dropWhile_eq_nil_iff]
    simpa using unsigned
  rw [cutAtSign?, passes]

/-! ## Bounds of numbers -/

/-- A word in ASCII that writes no number beyond the limit; or another token. -/
structure Modest (token : Token) : Prop where
  ascii : ∀ word, token = .word word → ∀ c ∈ word.toList, c.toNat < 128
  literals : ∀ value ∈ token.literals, value.natAbs ≤ literalLimit

/-- Every label of a table is in front of an address. -/
def Below (labels : LabelTable) (limit : Nat) : Prop :=
  ∀ name address, labels.find? name = some address → address < limit

theorem literalBound_eq : literalBound = 9223372036854775808 := by decide

theorem literalLimit_eq : literalLimit = 4611686018427387904 := by decide

theorem below_nil (limit : Nat) : Below [] limit := by
  intro name address found
  simp [LabelTable.find?] at found

theorem Below.define {labels : LabelTable} {limit : Nat} (below : Below labels limit)
    {name : String} {address : Nat} (inside : address < limit) :
    Below (labels.define name address) limit := by
  intro other value found
  rcases LabelTable.find?_define found with rfl | earlier
  · exact inside
  · exact below other value earlier

section Words

variable {labels : LabelTable} {limit : Nat} {word : String}

theorem mem_literals_of_plain {value : Int}
    (read : Assembly.literal? word.toList = some value) :
    value ∈ (Token.word word).literals := by
  simp [Token.literals, read]

theorem mem_literals_of_cut {value : Int} {name offset : List Char}
    (cut : cutAtSign? word.toList = some (name, offset))
    (read : Assembly.literal? offset = some value) :
    value ∈ (Token.word word).literals := by
  simp [Token.literals, cut, read]

/-- What a word stands for is a little more than a literal may be, at most. -/
theorem natAbs_resolve?_le (modest : Modest (.word word)) (below : Below labels limit)
    {resolved : Resolved} (found : Assembly.resolve? labels word = some resolved) :
    resolved.value.natAbs ≤ literalLimit + limit := by
  have plain : Assembly.resolvePlain? labels word = some resolved →
      resolved.value.natAbs ≤ literalLimit + limit := by
    unfold Assembly.resolvePlain?
    split
    · rename_i address known
      rintro ⟨⟩
      have inside := below _ _ known
      dsimp only
      omega
    · intro mapped
      obtain ⟨value, read, rfl⟩ := Option.map_eq_some_iff.mp mapped
      have small := modest.literals value (mem_literals_of_plain read)
      dsimp only
      omega
  unfold Assembly.resolve? at found
  split at found
  · exact plain found
  · rename_i name offset cut
    split at found
    · rename_i address known
      obtain ⟨value, read, rfl⟩ := Option.map_eq_some_iff.mp found
      have small := modest.literals value (mem_literals_of_cut cut read)
      have inside := below _ _ known
      dsimp only
      omega
    · exact plain found

/-- A word stands for the same number if it is worked out with checks. -/
theorem resolve?_eq (modest : Modest (.word word)) (below : Below labels limit)
    (small : limit ≤ literalLimit) :
    resolve? labels word = .ok (Assembly.resolve? labels word) := by
  have characters := modest.ascii word rfl
  have numbers : ∀ {value name offset}, cutAtSign? word.toList = some (name, offset) →
      Assembly.literal? offset = some value → value ∈ (Token.word word).literals :=
    mem_literals_of_cut
  unfold resolve? Assembly.resolve?
  cases text : word.toList with
  | nil => exact resolvePlain?_eq labels word
  | cons first rest =>
      rw [text] at characters numbers
      rw [cutAt?_one (characters first (by simp)), Option.bind_some]
      rcases exists_lastSign rest with unsigned | ⟨front, sign, back, rfl, signs, unsigned⟩
      · rw [lastSign?_eq_none unsigned, cutAtSign?_cons_eq_none unsigned]
        exact resolvePlain?_eq labels word
      · have cut := cutAt_append (first :: front) (sign :: back)
        rw [bytes_cons_of_ascii (characters first (by simp)), List.length_cons,
          List.cons_append] at cut
        rw [lastSign?_append signs unsigned, cutAtSign?_append signs unsigned]
        simp only [cut, ok_bind]
        cases known : labels.find? (String.ofList (first :: front)) with
        | none => exact resolvePlain?_eq labels word
        | some address =>
            simp only [literal?_eq, ok_bind]
            cases read : Assembly.literal? (sign :: back) with
            | none => rfl
            | some offset =>
                have inside := below _ _ known
                have offsetSmall := modest.literals offset
                  (numbers (cutAtSign?_append signs unsigned) read)
                have fits : signed (address + offset) = .ok (address + offset) := by
                  apply signed_eq
                  rw [literalBound_eq]
                  rw [literalLimit_eq] at small offsetSmall
                  omega
                simp only [fits, ok_bind]
                rfl

end Words

end Checked

end ClassroomCpu.Assembly
