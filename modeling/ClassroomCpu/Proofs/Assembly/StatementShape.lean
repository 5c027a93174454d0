import ClassroomCpu.Proofs.Assembly.LineSteps
import ClassroomCpu.Proofs.Assembly.StatementSize

/-!
# One statement in both passes

A statement is interpreted twice, under the labels so far and under all labels.
What it does to the cursor, and how many cells it takes, is the same both times
unless it places bytes by a word that is read in two ways.
-/

namespace ClassroomCpu.Assembly

variable {arch : Architecture}

namespace Effect

/-- Two effects go on at one place and take equally many cells. -/
def SameShape (effect other : Effect arch) : Prop :=
  (∃ address, effect = .origin address ∧ other = .origin address) ∨
    ∃ bytes bytesOther, effect = .data bytes ∧ other = .data bytesOther ∧
      bytes.length = bytesOther.length

theorem SameShape.next_eq {effect other : Effect arch} (same : effect.SameShape other)
    (cursor : Fin arch.memorySize) : effect.next cursor = other.next cursor := by
  rcases same with ⟨address, rfl, rfl⟩ | ⟨bytes, bytesOther, rfl, rfl, length⟩
  · rfl
  · simp [next, length]

theorem SameShape.cells_eq {effect other : Effect arch} (same : effect.SameShape other)
    (cursor : Nat) : effect.cells cursor = other.cells cursor := by
  rcases same with ⟨address, rfl, rfl⟩ | ⟨bytes, bytesOther, rfl, rfl, length⟩
  · rfl
  · simp [cells, length]

end Effect

theorem originAddress_ok {scope : Scope} {word : String} {effect : Effect arch}
    (given : originAddress scope arch word = .ok effect) :
    ∃ resolved, resolve? scope.labels word = some resolved ∧
      (Bounds.ofMemory arch).holds resolved.value = true ∧
        effect = .origin (arch.wrap resolved.value) := by
  obtain ⟨resolved, found, given⟩ := Outcome.bind_eq_ok.mp given
  rw [Outcome.orReject_eq_ok] at found
  split at given
  · rename_i inside
    exact ⟨resolved, found, inside, (Outcome.pure_eq_ok.mp given).symm⟩
  · exact absurd given Outcome.reject_ne_ok

theorem allocation_ok {scope : Scope} {width : Nat} {word : String} {effect : Effect arch}
    (given : allocation scope arch width (.word word) = .ok effect) :
    ∃ resolved, resolve? scope.labels word = some resolved ∧ 0 ≤ resolved.value ∧
      effect = .data (List.replicate (resolved.value.toNat * width) 0) := by
  obtain ⟨resolved, found, given⟩ := Outcome.bind_eq_ok.mp given
  rw [Outcome.orReject_eq_ok] at found
  split at given
  · exact absurd given Outcome.reject_ne_ok
  · rename_i inside
    refine ⟨resolved, found, ?_, (Outcome.pure_eq_ok.mp given).symm⟩
    simp only [Bool.or_eq_true, decide_eq_true_eq, not_or, Int.not_lt] at inside
    exact inside.1

theorem Placement.effect_sameShape {placement : Placement} {scope later : Scope}
    {effect effectLater : Effect arch}
    (given : placement.effect scope arch = .ok effect)
    (givenLater : placement.effect later arch = .ok effectLater)
    (sameValue : ∀ resolved resolvedLater, resolve? scope.labels placement.word = some resolved →
      resolve? later.labels placement.word = some resolvedLater →
        resolved.value = resolvedLater.value) :
    effect.SameShape effectLater := by
  cases placement with
  | origin word =>
      obtain ⟨resolved, found, _, rfl⟩ := originAddress_ok given
      obtain ⟨resolvedLater, foundLater, _, rfl⟩ := originAddress_ok givenLater
      have same := sameValue resolved resolvedLater found foundLater
      exact .inl ⟨_, rfl, by rw [same]⟩
  | zeros width word =>
      obtain ⟨resolved, found, _, rfl⟩ := allocation_ok given
      obtain ⟨resolvedLater, foundLater, _, rfl⟩ := allocation_ok givenLater
      have same := sameValue resolved resolvedLater found foundLater
      exact .inr ⟨_, _, rfl, rfl, by simp [same]⟩

/-- A statement whose placing word is not read in two ways has one shape in both passes. -/
theorem statementEffect_sameShape {statement : String} {scope later : Scope}
    {effect effectLater : Effect arch} (wellFormed : scope.labels.WellFormed)
    (grows : scope.labels.GrowsTo later.labels)
    (given : statementEffect scope arch statement = .ok effect)
    (givenLater : statementEffect later arch statement = .ok effectLater)
    (once : ∀ placement, Placement.ofStatement? statement = some placement →
      ¬ ReadTwoWays scope.labels later.labels placement.word) :
    effect.SameShape effectLater := by
  cases places : Placement.ofStatement? statement with
  | none => exact .inr (statementEffect_size_eq places given givenLater)
  | some placement =>
      rw [statementEffect_of_placement places] at given givenLater
      apply Placement.effect_sameShape given givenLater
      intro resolved resolvedLater found foundLater
      obtain ⟨expected, resolvesTo, same⟩ :=
        resolve?_value_of_growsTo wellFormed grows found (once placement places)
      rw [foundLater] at resolvesTo
      rw [← same, Option.some.inj resolvesTo]

/-- A word that is read in two ways gives a statement two shapes. -/
theorem placement_shapes_differ {statement : String} {placement : Placement}
    (places : Placement.ofStatement? statement = some placement) {scope later : Scope}
    {effect effectLater : Effect arch} (wellFormed : later.labels.WellFormed)
    (inMemory : ∀ name address, later.labels.find? name = some address →
      address < arch.memorySize)
    (given : statementEffect scope arch statement = .ok effect)
    (givenLater : statementEffect later arch statement = .ok effectLater)
    (twice : ReadTwoWays scope.labels later.labels placement.word)
    (cursor : Fin arch.memorySize) (start : Nat) :
    effect.next cursor ≠ effectLater.next cursor ∨
      effect.cells start ≠ effectLater.cells start := by
  obtain ⟨value, address, unknown, read, found, different⟩ := twice
  obtain ⟨nonneg, first, second⟩ := resolve?_of_becomes_label wellFormed unknown read found
  rw [statementEffect_of_placement places] at given givenLater
  cases placement with
  | origin word =>
      left
      obtain ⟨resolved, resolves, inside, rfl⟩ := originAddress_ok given
      obtain ⟨resolvedLater, resolvesLater, _, rfl⟩ := originAddress_ok givenLater
      rw [Placement.word] at first second
      obtain rfl := Option.some.inj (first.symm.trans resolves)
      obtain rfl := Option.some.inj (second.symm.trans resolvesLater)
      obtain ⟨_, below⟩ := Bounds.holds_iff.mp inside
      have known := inMemory _ _ found
      intro same
      have cells := congrArg (fun cell : Fin arch.memorySize => ((cell : Nat) : Int)) same
      simp only [Effect.next, Architecture.val_wrap] at cells
      simp only [Bounds.ofMemory] at below
      rw [Int.emod_eq_of_lt nonneg (by omega), Int.emod_eq_of_lt (by omega) (by omega)] at cells
      omega
  | zeros width word =>
      right
      obtain ⟨resolved, resolves, _, rfl⟩ := allocation_ok given
      obtain ⟨resolvedLater, resolvesLater, _, rfl⟩ := allocation_ok givenLater
      rw [Placement.word] at first second
      obtain rfl := Option.some.inj (first.symm.trans resolves)
      obtain rfl := Option.some.inj (second.symm.trans resolvesLater)
      have positive := Placement.width_pos places
      intro same
      have lengths := congrArg List.length same
      simp only [Effect.cells, length_cellsFrom, List.length_replicate] at lengths
      have numbers := Nat.eq_of_mul_eq_mul_right positive lengths
      simp only [Int.toNat_natCast] at numbers
      omega

end ClassroomCpu.Assembly
