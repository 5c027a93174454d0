import ClassroomCpu.Proofs.Assembly.History
import ClassroomCpu.Proofs.Assembly.QuoteScan
import ClassroomCpu.Proofs.Machine.Held

/-!
# Programs of one statement

A text without quotes and without the characters that end labels and start
comments is a line by itself.  As a program it is built without problems if its
statement gives bytes in both passes; these bytes then lie at the start of memory.
-/

namespace ClassroomCpu

namespace Text

/-! ## Lines -/

/-- The line that has been started goes on as long as no line feed is met. -/
theorem linesFrom_of_noFeed {current text : List Char} (noFeed : ∀ c ∈ text, c ≠ '\n')
    (something : current.reverse ++ text ≠ []) :
    linesFrom current text = [current.reverse ++ text] := by
  induction text generalizing current with
  | nil =>
      -- An empty line at the end of a text is no line.
      have nonempty : current ≠ [] := by simpa using something
      simp [linesFrom, nonempty]
  | cons c text induction =>
      have inLine : c ≠ '\n' := noFeed c (by simp)
      have further : linesFrom (c :: current) text = [(c :: current).reverse ++ text] :=
        induction (fun other member => noFeed other (by simp [member])) (by simp)
      simpa [linesFrom, inLine] using further

theorem trim_of_ends {text : List Char} (starts : ∀ c ∈ text.head?, isBlank c = false)
    (ends : ∀ c ∈ text.getLast?, isBlank c = false) : trim text = text := by
  have dropNothing : ∀ piece : List Char, (∀ c ∈ piece.head?, isBlank c = false) →
      piece.dropWhile isBlank = piece := by
    intro piece first
    cases piece with
    | nil => rfl
    | cons c piece => exact List.dropWhile_cons_of_neg (by simp [first c rfl])
  rw [trim, trimStart, dropNothing text starts, trimEnd, dropNothing text.reverse,
    List.reverse_reverse]
  simpa using ends

end Text

namespace Assembly

/-- Whether a character is no blank, and means nothing to the scan for labels and comments. -/
def isSolid (c : Char) : Bool :=
  !Text.isBlank c && c != ';' && c != ':' && c != '\''

/-- A text that is a line by itself: nothing in it but a statement without quotes. -/
structure IsPlainLine (text : List Char) : Prop where
  starts : ∃ c ∈ text.head?, isSolid c = true
  ends : ∃ c ∈ text.getLast?, isSolid c = true
  characters : ∀ c ∈ text, isSolid c = true ∨ c = ' '

namespace IsPlainLine

theorem of_solid {text : List Char} (nonempty : text ≠ [])
    (solid : ∀ c ∈ text, isSolid c = true) : IsPlainLine text where
  starts := ⟨text.head nonempty, List.head?_eq_some_head nonempty, solid _ (List.head_mem nonempty)⟩
  ends := ⟨text.getLast nonempty, List.getLast?_eq_some_getLast nonempty,
    solid _ (List.getLast_mem nonempty)⟩
  characters c member := .inl (solid c member)

/-- Two such texts make up one with blanks and commas between them. -/
theorem append {first second : List Char} (before : IsPlainLine first) {gap : List Char}
    (between : ∀ c ∈ gap, isSolid c = true ∨ c = ' ') (behind : IsPlainLine second) :
    IsPlainLine (first ++ (gap ++ second)) where
  starts := by
    obtain ⟨c, head, solid⟩ := before.starts
    exact ⟨c, by simp [Option.mem_def.mp head], solid⟩
  ends := by
    obtain ⟨c, last, solid⟩ := behind.ends
    exact ⟨c, by simp [Option.mem_def.mp last], solid⟩
  characters c member := by
    simp only [List.mem_append] at member
    rcases member with inFirst | inGap | inSecond
    · exact before.characters c inFirst
    · exact between c inGap
    · exact behind.characters c inSecond

section Line

variable {text : List Char} (plain : IsPlainLine text)
include plain

theorem ne_of_mem {c : Char} (member : c ∈ text) :
    c ≠ '\n' ∧ c ≠ ';' ∧ c ≠ ':' ∧ c ≠ '\'' := by
  rcases plain.characters c member with solid | rfl
  · simp only [isSolid, Bool.and_eq_true, bne_iff_ne, Bool.not_eq_true'] at solid
    refine ⟨?_, solid.1.1.2, solid.1.2, solid.2⟩
    rintro rfl
    exact absurd solid.1.1.1 (by decide)
  · decide

theorem cutUnquoted?_eq_none {needle : Char} (absent : ∀ c ∈ text, c ≠ needle) :
    cutUnquoted? needle text = none := by
  have passes : PassesOver needle .outside text [] .outside :=
    .of_unquoted fun c member => ⟨absent c member, (plain.ne_of_mem member).2.2.2⟩
  unfold PassesOver at passes
  rwa [List.append_nil] at passes

/-- The line has no label and no comment, and nothing is trimmed off its statement. -/
theorem ofText_eq : SourceLine.ofText text = ⟨none, String.ofList text⟩ := by
  have noComment := plain.cutUnquoted?_eq_none fun c member => (plain.ne_of_mem member).2.1
  have noLabel := plain.cutUnquoted?_eq_none fun c member => (plain.ne_of_mem member).2.2.1
  have noBlank : ∀ {c : Char}, isSolid c = true → Text.isBlank c = false := by
    intro c solid
    simp only [isSolid, Bool.and_eq_true, Bool.not_eq_true'] at solid
    exact solid.1.1.1
  have trimmed : Text.trim text = text := by
    obtain ⟨first, head, firstSolid⟩ := plain.starts
    obtain ⟨last, tail, lastSolid⟩ := plain.ends
    apply Text.trim_of_ends
    · intro c member
      rw [← Option.mem_unique head member]
      exact noBlank firstSolid
    · intro c member
      rw [← Option.mem_unique tail member]
      exact noBlank lastSolid
  simp only [SourceLine.ofText, SourceLine.dropComment, noComment, noLabel, trimmed]

end Line

end IsPlainLine

theorem ofSource_of_plainLine {source : String} (plain : IsPlainLine source.toList) :
    SourceLine.ofSource source = [⟨none, source⟩] := by
  have nonempty : source.toList ≠ [] := by
    obtain ⟨c, head, _⟩ := plain.starts
    intro nothing
    simp [nothing] at head
  have lines : Text.linesFrom [] source.toList = [source.toList] :=
    Text.linesFrom_of_noFeed (fun c member => (plain.ne_of_mem member).1) nonempty
  simp [SourceLine.ofSource, Text.lines, lines, plain.ofText_eq]

/-! ## Cells one behind the other -/

variable {arch : Architecture}

theorem mem_cellsFrom {cell : Fin arch.memorySize} {address count : Nat} :
    cell ∈ cellsFrom arch address count ↔
      ∃ offset < count, cell = arch.cell (address + offset) := by
  induction count generalizing address with
  | zero => simp [cellsFrom]
  | succ count induction =>
      rw [cellsFrom, List.mem_cons, induction]
      constructor
      · rintro (here | ⟨offset, inside, rfl⟩)
        · exact ⟨0, by omega, here⟩
        · exact ⟨offset + 1, by omega, by rw [Nat.add_assoc, Nat.add_comm 1]⟩
      · rintro ⟨offset, inside, rfl⟩
        cases offset with
        | zero => exact .inl rfl
        | succ offset => exact .inr ⟨offset, by omega, by rw [Nat.add_assoc, Nat.add_comm 1]⟩

/-- So many cells as memory has do not come round to the first one. -/
theorem cell_notMem_cellsFrom {address count : Nat} (few : count < arch.memorySize) :
    arch.cell address ∉ cellsFrom arch (address + 1) count := by
  rw [mem_cellsFrom]
  rintro ⟨offset, inside, same⟩
  have remainders : (address + 1 + offset) % arch.memorySize = address % arch.memorySize :=
    (congrArg Fin.val same).symm
  have distance := Nat.sub_mod_eq_zero_of_mod_eq remainders
  rw [Nat.add_assoc, Nat.add_sub_cancel_left, Nat.mod_eq_of_lt (by omega)] at distance
  omega

theorem mem_cellsFrom_start {cell : Fin arch.memorySize} {count : Nat} :
    cell ∈ cellsFrom arch 0 count ↔ cell < count := by
  rw [mem_cellsFrom]
  constructor
  · rintro ⟨offset, inside, rfl⟩
    rw [Nat.zero_add]
    exact Nat.lt_of_le_of_lt (Nat.mod_le _ _) inside
  · exact fun inside => ⟨cell, inside, by rw [Nat.zero_add, Architecture.cell_val]⟩

theorem Layout.reserveFrom_of_free {layout : Layout arch} {address count : Nat}
    (few : count ≤ arch.memorySize)
    (free : ∀ cell ∈ cellsFrom arch address count, layout.reserved.get cell = false) :
    ∃ after, layout.reserveFrom address count = (after, .ok ()) := by
  induction count generalizing layout address with
  | zero => exact ⟨layout, rfl⟩
  | succ count induction =>
      have here : layout.reserved.get (arch.cell address) = false := free _ (by simp [cellsFrom])
      simp only [reserveFrom_succ, here, Bool.false_eq_true, if_false]
      apply induction (by omega)
      -- The cell that has just been taken is not met again before memory comes round.
      intro cell member
      have apart : arch.cell address ≠ cell := by
        rintro rfl
        exact cell_notMem_cellsFrom (by omega) member
      rw [← free cell (by simp [cellsFrom, member])]
      exact get_set_of_ne apart

theorem Image.holds_putFrom {machine : Machine arch} {image : Image arch} {line address : Nat}
    {bytes : List UInt8} (few : bytes.length ≤ arch.memorySize)
    (memory : machine.memory = (image.putFrom line address bytes).memory) :
    machine.Holds address bytes := by
  induction bytes generalizing image address with
  | nil => exact Machine.holds_nil address
  | cons byte bytes induction =>
      rw [List.length_cons] at few
      rw [putFrom_cons] at memory
      refine Machine.holds_cons.mpr ⟨?_, induction (by omega) memory⟩
      have apart : arch.cell address ∉ cellsFrom arch (address + 1) bytes.length :=
        cell_notMem_cellsFrom few
      rw [Machine.peek, memory, memory_putFrom _ _ _ _ apart]
      exact get_set_self image.memory (arch.cell address) byte

/-! ## The build -/

section Build

variable {source : String} {bytes : List UInt8}

theorem Layout.treatLine_start (something : source.isEmpty = false)
    (reserved : statementEffect ⟨.reserve, [], 0⟩ arch source = .ok (.data bytes))
    (few : bytes.length ≤ arch.memorySize) :
    ∃ after, (start arch).treatLine ⟨none, source⟩ = (after, .ok ()) ∧ after.labels = [] := by
  have given : statementEffect ⟨.reserve, (start arch).labels, (start arch).cursor⟩ arch source =
      .ok (.data bytes) := by
    simpa [start, Architecture.val_cell_zero] using reserved
  have free : ∀ cell ∈ cellsFrom arch (start arch).cursor bytes.length,
      (start arch).reserved.get cell = false := fun cell _ => get_replicate false cell
  obtain ⟨taken, takes⟩ := reserveFrom_of_free few free
  refine ⟨{ taken with cursor := arch.cell (taken.cursor + bytes.length) }, ?_,
    congrArg Layout.labels (reserveFrom_ok takes).1⟩
  simp only [treatLine, treatStatement, something, given, reserve, takes, Bool.false_eq_true,
    if_false]

theorem Image.treatLine_start (something : source.isEmpty = false)
    (emitted : statementEffect ⟨.emit, [], 0⟩ arch source = .ok (.data bytes)) :
    treatLine [] 0 ⟨none, source⟩ (start arch) = ((start arch).put 0 bytes, .ok ()) := by
  have given : statementEffect ⟨.emit, [], (start arch).cursor⟩ arch source =
      .ok (.data bytes) := by
    simpa [start, Architecture.val_cell_zero] using emitted
  simp only [treatLine, something, given, Bool.false_eq_true, if_false]

variable (plain : IsPlainLine source.toList) {first : List UInt8}
  (reserved : statementEffect ⟨.reserve, [], 0⟩ arch source = .ok (.data first))
  (emitted : statementEffect ⟨.emit, [], 0⟩ arch source = .ok (.data bytes))
  (length : first.length = bytes.length) (few : bytes.length ≤ arch.memorySize)
include plain reserved emitted length few

/-- A statement that gives bytes in both passes is a program that puts them at address zero. -/
theorem ofSource_of_statement :
    let build := Build.ofSource arch source
    build.errors = [] ∧ build.fault = none ∧ build.image = (Image.start arch).put 0 bytes := by
  have something : source.isEmpty = false := by
    obtain ⟨c, head, _⟩ := plain.starts
    by_contra nothing
    simp_all
  obtain ⟨layout, laidOut, noLabels⟩ := Layout.treatLine_start something reserved (length ▸ few)
  have put := Image.treatLine_start something emitted
  simp [Build.ofSource, Build.ofLines, ofSource_of_plainLine plain, passLines, laidOut, noLabels,
    put]

/-- The bytes lie at address zero afterwards, and the first line is known to have given them. -/
theorem assemble_statement (reaches : Machine.ReachesStack arch) {before : Architecture}
    (assembler : Assembler before) (machine : Machine arch) :
    let built := assembler.assemble machine source
    built.errors = [] ∧ built.fault = none ∧ built.machine.Holds 0 bytes ∧
      ∀ cell : Fin arch.memorySize,
        built.assembler.line? cell = if cell < bytes.length then some 0 else none := by
  obtain ⟨noErrors, noFault, image⟩ := ofSource_of_statement plain reserved emitted length few
  obtain ⟨errors, fault, tables, _⟩ := assembler.assemble_eq_build machine source
  rw [noErrors] at errors
  rw [noFault] at fault
  have memory : (assembler.assemble machine source).machine.memory =
      ((Image.start arch).putFrom 0 0 bytes).memory := by
    rw [assembler.machine_assemble machine source errors fault, Assembler.memory_commit _ _ reaches,
      tables.memory, image]
    simp [Image.put, Image.start, Architecture.val_cell_zero]
  refine ⟨errors, fault, Image.holds_putFrom few memory, fun cell => ?_⟩
  rw [Assembler.line?, tables.sourceMap, Build.sourceMap, image]
  have recorded := Image.line?_putFrom (Image.start arch) 0 0 bytes cell
  simp only [mem_cellsFrom_start] at recorded
  simpa [Image.put, Image.start, Architecture.val_cell_zero] using recorded

end Build

/-! ## Instruction texts -/

theorem isSolid_of_isWordChar {c : Char} (wordChar : Token.isWordChar c = true) :
    isSolid c = true :=
  Text.ascii_cases (motive := fun c => Token.isWordChar c = true → isSolid c = true) (by decide)
    (isLabelChar_ascii wordChar) wordChar

theorem isSolid_of_isPlainWord {text : List Char} (plain : Token.isPlainWord text = true) :
    ∀ c ∈ text, isSolid c = true := by
  intro c member
  unfold Token.isPlainWord at plain
  split at plain
  · simp only [Bool.and_eq_true, List.all_eq_true] at plain
    rcases List.mem_cons.mp member with rfl | inName
    · decide
    · exact isSolid_of_isWordChar (plain.2 c inName)
  · simp only [Bool.and_eq_true, List.all_eq_true] at plain
    exact isSolid_of_isWordChar (plain.2 c member)

theorem isSolid_of_isPlain {token : Token} (plain : token.isPlain = true) :
    ∀ c ∈ token.text.toList, isSolid c = true := by
  cases token with
  | word text => exact isSolid_of_isPlainWord plain
  | quoted text => simp [Token.isPlain] at plain
  | _ => simp [Token.text]; decide

theorem isPlainLine_intercalate {separator : String}
    (gap : ∀ c ∈ separator.toList, isSolid c = true ∨ c = ' ') {shown : List String}
    (nonempty : shown ≠ []) (plain : ∀ text ∈ shown, IsPlainLine text.toList) :
    IsPlainLine (separator.intercalate shown).toList := by
  induction shown with
  | nil => exact absurd rfl nonempty
  | cons first others induction =>
      cases others with
      | nil => simpa using plain first (by simp)
      | cons second others =>
          have further := induction (by simp) fun text member => plain text (by simp [member])
          simpa using (plain first (by simp)).append gap further

/-- A mnemonic with arguments that hold no blanks is a line by itself. -/
theorem isPlainLine_joinArguments {title separator : String} (plain : IsPlainLine title.toList)
    (gap : ∀ c ∈ separator.toList, isSolid c = true ∨ c = ' ') {arguments : List String}
    (solid : ∀ shown ∈ arguments, ∀ c ∈ shown.toList, isSolid c = true) :
    IsPlainLine (Machine.joinArguments title separator arguments).toList := by
  have seen : ∀ shown ∈ arguments.filter (fun shown => !shown.isEmpty),
      IsPlainLine shown.toList := by
    intro shown member
    obtain ⟨among, nonempty⟩ := List.mem_filter.mp member
    exact .of_solid (by simpa using nonempty) (solid shown among)
  unfold Machine.joinArguments
  split
  · exact plain
  · rename_i first others kept
    rw [kept] at seen
    have further := isPlainLine_intercalate gap (by simp) seen
    have blank : ∀ c ∈ [' '], isSolid c = true ∨ c = ' ' := by simp
    simpa using plain.append blank further

theorem isPlainLine_instruction {sheet : Datasheet} (legible : sheet.Legible)
    {instruction : Instruction} {arguments : List Argument}
    (known : instruction ∈ sheet.instructions)
    (fits : List.Forall₂ (Argument.Fits sheet) instruction.parameters arguments)
    (numbered : ∀ argument ∈ arguments, argument.IsNumbered) :
    IsPlainLine (Machine.joinArguments instruction.title (separator sheet)
      (arguments.map (·.text))).toList := by
  have title := (legible.titles instruction known).1
  have nonempty : instruction.title.toList ≠ [] := by
    intro nothing
    simp [nothing, Token.isPlainWord] at title
  apply isPlainLine_joinArguments (.of_solid nonempty (isSolid_of_isPlainWord title))
  · have comma : isSolid ',' = true := by decide
    unfold separator
    split <;> simp [comma]
  · intro shown member c inText
    obtain ⟨argument, among, rfl⟩ := List.mem_map.mp member
    obtain ⟨parameter, fit⟩ := exists_parameter fits argument among
    rw [toList_argumentText legible fit (numbered argument among), Token.textOf] at inText
    obtain ⟨token, inTokens, inToken⟩ := List.mem_flatMap.mp inText
    exact isSolid_of_isPlain
      ((row_argumentTokens legible fit (numbered argument among)).plain token inTokens) c inToken

end Assembly

end ClassroomCpu
