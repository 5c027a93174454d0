import ClassroomCpu.Proofs.Assembly.Renumbering
import ClassroomCpu.Proofs.Assembly.SingleLine

/-!
# Blank lines

A line that holds nothing but blanks and a comment does nothing.  Wherever it is
put into a program, the program is built as before: the lines behind it have
other numbers, and nothing else changes.
-/

namespace ClassroomCpu

/-! ## Line ends -/

namespace Text

theorem dropReturn_cases (reversed : List Char) :
    dropReturn reversed = reversed ∨ reversed = '\r' :: dropReturn reversed := by
  unfold dropReturn
  split
  · exact .inr rfl
  · exact .inl rfl

/-- A blank at the end of a text is trimmed off. -/
theorem trim_append_blank (text : List Char) {c : Char} (blank : isBlank c = true) :
    trim (text ++ [c]) = trim text := by
  have nothing : [c].dropWhile isBlank = [] := by simp [blank]
  unfold trim trimStart trimEnd
  rw [List.dropWhile_append, nothing]
  split
  · rename_i empty
    rw [List.isEmpty_iff.mp empty]
  · simp [blank]

theorem trim_of_blank {text : List Char} (blank : ∀ c ∈ text, isBlank c = true) :
    trim text = [] := by
  have nothing : text.dropWhile isBlank = [] := List.dropWhile_eq_nil_iff.mpr blank
  rw [trim, trimStart, nothing]
  rfl

theorem linesFrom_append_feed (current : List Char) {text : List Char}
    (noFeed : ∀ c ∈ text, c ≠ '\n') (rest : List Char) :
    linesFrom current (text ++ '\n' :: rest) =
      (dropReturn (text.reverse ++ current)).reverse :: linesFrom [] rest := by
  induction text generalizing current with
  | nil => simp [linesFrom]
  | cons c text induction =>
      have inLine : c ≠ '\n' := noFeed c (by simp)
      have further := induction (c :: current) fun other member =>
        noFeed other (by simp [member])
      simpa [linesFrom, inLine] using further

end Text

namespace Assembly

namespace QuoteScan

theorem startsLone_cons_cons (first second : Char) (rest : List Char) :
    startsLone (first :: second :: rest) =
      (first == '\'' && second == '\'' && Token.endsLoneQuote rest.head?) := by
  unfold startsLone
  split
  · rename_i same
    obtain ⟨rfl, rfl, rfl⟩ : first = '\'' ∧ second = '\'' ∧ _ := by simpa using same
    simp
  · rename_i other
    by_cases quotes : first = '\'' ∧ second = '\''
    · exact absurd (by rw [quotes.1, quotes.2]) (other rest)
    · simp only [Bool.false_eq, Bool.and_eq_false_imp, Bool.and_eq_true, beq_iff_eq]
      exact fun both => absurd both quotes

/-- A carriage return behind a text does not change whether it starts with a lone quote. -/
theorem next_append_return (scan : QuoteScan) (c : Char) (rest : List Char) :
    scan.next c (rest ++ ['\r']) = scan.next c rest := by
  have ends (rest : List Char) : Token.endsLoneQuote (rest ++ ['\r']).head? =
      Token.endsLoneQuote rest.head? := by
    cases rest with
    | nil => decide
    | cons c rest => rfl
  have opens : startsLone (rest ++ ['\r']) = startsLone rest := by
    rcases rest with _ | ⟨first, _ | ⟨second, rest⟩⟩
    · rfl
    · simp [startsLone]
    · rw [List.cons_append, List.cons_append, startsLone_cons_cons, startsLone_cons_cons, ends]
  simp only [next, opens]

end QuoteScan

/-- A carriage return behind a text does not change where the text is cut. -/
theorem cutFrom?_append_return {needle : Char} (other : '\r' ≠ needle) (scan : QuoteScan)
    (text : List Char) :
    cutFrom? needle scan (text ++ ['\r']) =
      (cutFrom? needle scan text).map fun cut => (cut.1, cut.2 ++ ['\r']) := by
  induction text generalizing scan with
  | nil => simp [cutFrom?, other]
  | cons c text induction =>
      rw [List.cons_append, cutFrom?, cutFrom?, QuoteScan.next_append_return]
      split
      · rfl
      · rw [induction, Option.map_map, Option.map_map]
        rfl

namespace SourceLine

/-- A carriage return at the end of a line belongs to the comment, or is trimmed off. -/
theorem ofText_append_return (text : List Char) : ofText (text ++ ['\r']) = ofText text := by
  have trimmed (piece : List Char) : Text.trim (piece ++ ['\r']) = Text.trim piece :=
    Text.trim_append_blank piece (by decide)
  have code : dropComment (text ++ ['\r']) = dropComment text ∨
      dropComment (text ++ ['\r']) = dropComment text ++ ['\r'] := by
    unfold dropComment cutUnquoted?
    rw [cutFrom?_append_return (by decide)]
    cases cutFrom? ';' .outside text with
    | none => exact .inr rfl
    | some cut => exact .inl rfl
  unfold ofText
  rcases code with same | longer
  · rw [same]
  · rw [longer]
    dsimp only
    unfold cutUnquoted?
    rw [cutFrom?_append_return (by decide)]
    cases cutFrom? ':' .outside (dropComment text) with
    | none => simp only [Option.map_none, trimmed]
    | some cut => simp only [Option.map_some, trimmed]

theorem ofText_dropReturn (text : List Char) :
    ofText (Text.dropReturn text.reverse).reverse = ofText text := by
  rcases Text.dropReturn_cases text.reverse with same | longer
  · rw [same, List.reverse_reverse]
  · have whole : text = (Text.dropReturn text.reverse).reverse ++ ['\r'] := by
      rw [← List.reverse_cons, ← longer, List.reverse_reverse]
    conv_rhs => rw [whole]
    rw [ofText_append_return]

/-! ## Lines on which nothing stands -/

/-- A text of blanks alone, or with a comment behind them. -/
inductive IsBlank : List Char → Prop where
  | blanks {blanks : List Char} (blank : ∀ c ∈ blanks, Text.isBlank c = true) : IsBlank blanks
  | comment {blanks : List Char} (blank : ∀ c ∈ blanks, Text.isBlank c = true)
      (text : List Char) : IsBlank (blanks ++ ';' :: text)

theorem ofText_of_isBlank {text : List Char} (isBlank : IsBlank text) : ofText text = blank := by
  have uncut : ∀ {blanks : List Char} (needle : Char), Text.isBlank needle = false →
      (∀ c ∈ blanks, Text.isBlank c = true) → ∀ behind,
        PassesOver needle .outside blanks behind .outside := by
    intro blanks needle solid blank behind
    apply PassesOver.of_unquoted
    intro c member
    have here := blank c member
    constructor
    · rintro rfl
      rw [solid] at here
      contradiction
    · rintro rfl
      contradiction
  have unlabelled : ∀ {blanks : List Char}, (∀ c ∈ blanks, Text.isBlank c = true) →
      cutUnquoted? ':' blanks = none := by
    intro blanks blank
    have passes := uncut ':' (by decide) blank []
    rwa [PassesOver, List.append_nil] at passes
  have code : ∃ blanks, (∀ c ∈ blanks, Text.isBlank c = true) ∧ dropComment text = blanks := by
    cases isBlank with
    | blanks blank =>
        have passes := uncut ';' (by decide) blank []
        rw [PassesOver, List.append_nil] at passes
        exact ⟨text, blank, by rw [dropComment, cutUnquoted?, passes]; rfl⟩
    | @comment blanks blank comment =>
        have passes := uncut ';' (by decide) blank (';' :: comment)
        rw [PassesOver] at passes
        refine ⟨blanks, blank, ?_⟩
        rw [dropComment, cutUnquoted?, passes]
        simp [cutFrom?]
  obtain ⟨blanks, blank, code⟩ := code
  unfold ofText
  simp only [code, unlabelled blank, Text.trim_of_blank blank]
  rfl

/-- The lines of a program, one below the other, are those of its text but for an empty last one. -/
theorem ofSource_intercalate {lines : List String}
    (noFeed : ∀ line ∈ lines, ∀ c ∈ line.toList, c ≠ '\n') :
    ∃ ends, (ends = [] ∨ ends = [blank]) ∧
      lines.map (fun line => ofText line.toList) =
        ofSource ("\n".intercalate lines) ++ ends := by
  simp only [ofSource_eq]
  induction lines with
  | nil => exact ⟨[], .inl rfl, rfl⟩
  | cons first others induction =>
      have inFirst := noFeed first (by simp)
      cases others with
      | nil =>
          by_cases empty : first.toList = []
          · refine ⟨[blank], .inr rfl, ?_⟩
            have nothing : ofText [] = blank := ofText_of_isBlank (.blanks (by simp))
            simp [empty, nothing, Text.linesFrom]
          · refine ⟨[], .inl rfl, ?_⟩
            have single : Text.linesFrom [] first.toList = [[].reverse ++ first.toList] :=
              Text.linesFrom_of_noFeed inFirst (by simpa using empty)
            simp [single]
      | cons second others =>
          obtain ⟨ends, known, rest⟩ := induction fun line member =>
            noFeed line (by simp [member])
          refine ⟨ends, known, ?_⟩
          have cut := Text.linesFrom_append_feed [] inFirst
            ("\n".intercalate (second :: others)).toList
          have joined : ("\n".intercalate (first :: second :: others)).toList =
              first.toList ++ '\n' :: ("\n".intercalate (second :: others)).toList := by simp
          rw [List.append_nil] at cut
          rw [List.map_cons, rest, joined, cut, List.map_cons, ofText_dropReturn, List.cons_append]

end SourceLine

/-! ## Passes -/

variable {arch : Architecture}

theorem passLines_append_blank {State : Type}
    {treat : Nat → SourceLine → State → State × Outcome Unit}
    (blank : ∀ number state, treat number .blank state = (state, .ok ())) (state : State)
    (number : Nat) (lines : List SourceLine) :
    passLines treat state number (lines ++ [.blank]) = passLines treat state number lines := by
  induction lines generalizing state number with
  | nil => simp only [List.nil_append, passLines, blank]
  | cons line lines induction => simp only [List.cons_append, passLines, induction]

theorem Build.ofLines_append_blank (lines : List SourceLine) :
    ofLines arch (lines ++ [.blank]) = ofLines arch lines := by
  have first := passLines_append_blank (fun _ layout => Layout.treatLine_blank layout)
    (Layout.start arch) 0 lines
  have second (labels : LabelTable) := passLines_append_blank (Image.treatLine_blank labels)
    (Image.start arch) 0 lines
  unfold ofLines
  simp only [first, second]

/-- Lines one below the other are built line by line. -/
theorem Build.ofSource_intercalate {lines : List String}
    (noFeed : ∀ line ∈ lines, ∀ c ∈ line.toList, c ≠ '\n') :
    ofSource arch ("\n".intercalate lines) =
      ofLines arch (lines.map fun line => .ofText line.toList) := by
  obtain ⟨ends, known, same⟩ := SourceLine.ofSource_intercalate noFeed
  rw [same, ofSource]
  rcases known with rfl | rfl
  · rw [List.append_nil]
  · rw [ofLines_append_blank]

/-! ## A line between others -/

/-- The number that a line has once another one was put in at a position. -/
def placeBehind (position line : Nat) : Nat :=
  if line < position then line else line + 1

theorem placeBehind_injective (position : Nat) : Function.Injective (placeBehind position) := by
  intro line other same
  unfold placeBehind at same
  split at same <;> split at same <;> omega

theorem placeBehind_ne (position line : Nat) : placeBehind position line ≠ position := by
  unfold placeBehind
  split <;> omega

/-- Behind the line that is put in, every line is one place further on. -/
theorem aligned_behind {position number : Nat} (lines : List SourceLine)
    (later : position ≤ number) :
    Aligned id (placeBehind position) number (number + 1) lines lines := by
  induction lines generalizing number with
  | nil => exact .nil number (number + 1)
  | cons line lines induction =>
      exact .line line (if_neg (Nat.not_lt.mpr later)) (induction (Nat.le_succ_of_le later))

theorem aligned_blank {position : Nat} (front back : List SourceLine) (number : Nat)
    (here : number + front.length = position) :
    Aligned id (placeBehind position) number number (front ++ back)
      (front ++ .blank :: back) := by
  induction front generalizing number with
  | nil => exact .blank (aligned_behind back (Nat.le_of_eq here.symm))
  | cons line front induction =>
      rw [List.length_cons] at here
      exact .line line (if_pos (by omega)) (induction (number + 1) (by omega))

/-- A program and the same one with a line put in on which nothing stands are built alike. -/
theorem Build.alike_of_blank (front back : List SourceLine) :
    (ofLines arch (front ++ back)).Alike id (placeBehind front.length) Eq
      (Image.Renumbered (placeBehind front.length)) (ofLines arch (front ++ .blank :: back)) := by
  have aligned := aligned_blank front back 0 (Nat.zero_add _)
  have start : (Image.start arch).Renumbered (placeBehind front.length) (Image.start arch) :=
    ⟨rfl, rfl, .empty _⟩
  refine Build.alike_ofLines (fun _ _ same => by rw [same]) start ?_ fun labels => ?_
  · refine passLines_alike (fun _ layout => Layout.treatLine_blank layout) aligned ?_ rfl
    rintro line - number layout _ rfl
    exact ⟨rfl, .refl _⟩
  · refine passLines_alike (Image.treatLine_blank labels) aligned ?_ start
    intro line _ number image other renumbered
    exact renumbered.treatLine (placeBehind_injective _) rfl (fun _ => .refl _) labels number

namespace Assembler

variable {before earlier : Architecture}

/--
A line of blanks, with or without a comment, may be put into a program anywhere.
The lines behind it have other numbers in the errors and in the source map, and
apart from that the program is built as before.
-/
theorem assemble_blank_line (assembler : Assembler before) (other : Assembler earlier)
    (machine : Machine arch) {front back : List String} {inserted : String}
    (noFeed : ∀ line ∈ front ++ inserted :: back, ∀ c ∈ line.toList, c ≠ '\n')
    (isBlank : SourceLine.IsBlank inserted.toList) :
    let built := assembler.assemble machine ("\n".intercalate (front ++ back))
    let longer := other.assemble machine ("\n".intercalate (front ++ inserted :: back))
    let place := placeBehind front.length
    longer.errors = built.errors.map (fun error => { error with line := place error.line }) ∧
      longer.fault = built.fault ∧
      longer.assembler.labels = built.assembler.labels ∧
      (∀ address, longer.assembler.label? address = built.assembler.label? address) ∧
      (∀ address, longer.assembler.line? address =
        (built.assembler.line? address).map place) ∧
      (∀ line, longer.assembler.address? (place line) = built.assembler.address? line) ∧
      longer.assembler.address? front.length = none ∧
      longer.machine = built.machine := by
  intro built longer place
  have noFeedBefore : ∀ line ∈ front ++ back, ∀ c ∈ line.toList, c ≠ '\n' := by
    intro line member
    apply noFeed line
    rw [List.mem_append] at member
    rw [List.mem_append, List.mem_cons]
    exact member.imp_right .inr
  have alike := @Build.alike_of_blank arch (front.map fun line => .ofText line.toList)
    (back.map fun line => .ofText line.toList)
  have before := @Build.ofSource_intercalate arch _ noFeedBefore
  have after := @Build.ofSource_intercalate arch _ noFeed
  rw [List.map_append] at before
  rw [List.map_append, List.map_cons, SourceLine.ofText_of_isBlank isBlank] at after
  rw [← before, ← after, List.length_map] at alike
  obtain ⟨errors, fault, holds, put⟩ :=
    assembler.assemble_eq_build machine ("\n".intercalate (front ++ back))
  obtain ⟨longerErrors, longerFault, longerHolds, longerPut⟩ :=
    other.assemble_eq_build machine ("\n".intercalate (front ++ inserted :: back))
  have sameErrors : longer.errors =
      built.errors.map fun error => { error with line := place error.line } := by
    have injective : Function.Injective fun error : SourceError => (error.line, error.problem) := by
      rintro ⟨line, problem⟩ ⟨other, otherProblem⟩ same
      simpa using same
    apply List.map_injective_iff.mpr injective
    rw [List.map_map, longerErrors, errors]
    exact alike.errors
  refine ⟨sameErrors, ?_, ?_, fun address => ?_, fun address => ?_, fun line => ?_, ?_, ?_⟩
  · rw [longerFault, fault, alike.fault]
  · rw [longerHolds.labels, holds.labels, Build.labels, Build.labels, alike.layout]
  · rw [label?, label?, longerHolds.labelTexts, holds.labelTexts, alike.layout]
  · rw [line?, line?, longerHolds.sourceMap, holds.sourceMap]
    exact alike.image.sourceMap.lines address
  · rw [address?, address?, longerHolds.sourceMap, holds.sourceMap]
    exact alike.image.sourceMap.addresses line
  · rw [address?, longerHolds.sourceMap]
    exact alike.image.sourceMap.nothing _ (placeBehind_ne front.length)
  · rw [longerPut, put]
    simp only [Machine.assemble, alike.succeeded, Machine.install, alike.image.memory,
      alike.layout]

/-- Behind a comment with a quote in it, the second definition of a label is on the third line. -/
theorem assemble_blank_line_comment :
    let assembler := Assembler.new Catalog.neander
    let machine := Machine.new Catalog.neander
    (assembler.assemble machine "a: nop\na: hlt").errors = [⟨1, .duplicateLabel "a"⟩] ∧
      (assembler.assemble machine "a: nop\n\t; don't\na: hlt").errors =
        [⟨2, .duplicateLabel "a"⟩] := by
  intro assembler machine
  have noFeed : ∀ line ∈ ["a: nop"] ++ "\t; don't" :: ["a: hlt"], ∀ c ∈ line.toList, c ≠ '\n' := by
    have inLines : (["a: nop"] ++ "\t; don't" :: ["a: hlt"]).all
        (fun line => line.toList.all (· != '\n')) = true := by
      decide +kernel
    intro line member c inside
    have inLine := List.all_eq_true.mp inLines line member
    simpa using List.all_eq_true.mp inLine c inside
  have isBlank : SourceLine.IsBlank "\t; don't".toList :=
    .comment (List.forall_mem_singleton.mpr (by decide) : ∀ c ∈ ['\t'], Text.isBlank c = true) _
  have errors : (assembler.assemble machine "a: nop\na: hlt").errors =
      [⟨1, .duplicateLabel "a"⟩] := by
    decide +kernel
  refine ⟨errors, ?_⟩
  have longer := (assemble_blank_line assembler assembler machine noFeed isBlank).1
  have joined : "\n".intercalate (["a: nop"] ++ ["a: hlt"]) = "a: nop\na: hlt" := rfl
  rw [joined, errors] at longer
  exact longer

end Assembler

end Assembly

end ClassroomCpu
