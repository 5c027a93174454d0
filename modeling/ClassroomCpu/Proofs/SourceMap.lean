import ClassroomCpu.SourceMap
import Mathlib.Data.Finset.Card
import Mathlib.Data.List.Induction

/-!
# Source maps as records

A source map forgets all that was recorded but the last line of an address and
the first address of a line.  The two directions therefore part as soon as an
address is given twice; as long as every address is new when it is recorded,
the first address of a line leads back to this line.
-/

namespace ClassroomCpu.SourceMap

/-- What a map keeps of the pairs of an address and a line that were recorded in it. -/
structure Records (pairs : List (Nat × Nat)) (map : SourceMap) : Prop where
  /-- An address has the line that was recorded last. -/
  lines : ∀ address, map.line? address =
    (pairs.reverse.find? fun pair => pair.1 = address).map Prod.snd
  /-- A line has the address that was recorded first. -/
  addresses : ∀ line, map.address? line = (pairs.find? fun pair => pair.2 = line).map Prod.fst
  /-- Every address counts once. -/
  size : map.size = (pairs.map Prod.fst).toFinset.card

/-- The two directions of a map fit together. -/
structure Consistent (map : SourceMap) : Prop where
  /-- The first address of a line has this line. -/
  leadsBack : ∀ line address, map.address? line = some address → map.line? address = some line
  /-- The line of an address has a first address. -/
  reached : ∀ address line, map.line? address = some line → ∃ first, map.address? line = some first

theorem ofList_append (pairs : List (Nat × Nat)) (pair : Nat × Nat) :
    ofList (pairs ++ [pair]) = (ofList pairs).insert pair.1 pair.2 := by
  simp [ofList]

/-! ## Records -/

namespace Records

theorem empty : Records [] empty where
  lines := by simp
  addresses := by simp
  size := rfl

variable {pairs : List (Nat × Nat)} {map : SourceMap}

theorem line?_eq_none_iff (records : Records pairs map) (address : Nat) :
    map.line? address = none ↔ address ∉ pairs.map Prod.fst := by
  rw [records.lines, Option.map_eq_none_iff, List.find?_eq_none]
  simp only [List.mem_reverse, decide_eq_true_eq, List.mem_map, not_exists, not_and]

/-- An address counts when it is recorded for the first time. -/
theorem size_insert (records : Records pairs map) (address line : Nat) :
    (map.insert address line).size = ((pairs ++ [(address, line)]).map Prod.fst).toFinset.card := by
  have known : address ∈ map.lines ↔ address ∈ (pairs.map Prod.fst).toFinset := by
    rw [List.mem_toFinset, ← not_iff_not, ← records.line?_eq_none_iff address, line?,
      Std.TreeMap.mem_iff_isSome_getElem?, Option.not_isSome_iff_eq_none]
  have before : map.lines.size = (pairs.map Prod.fst).toFinset.card := records.size
  have after : ((pairs ++ [(address, line)]).map Prod.fst).toFinset =
      Insert.insert address (pairs.map Prod.fst).toFinset := by
    rw [List.map_append, List.toFinset_append, Finset.union_comm]
    rfl
  have inserted : (map.insert address line).size =
      if address ∈ map.lines then map.lines.size else map.lines.size + 1 :=
    Std.TreeMap.size_insert
  rw [inserted, before, after, Finset.card_insert_eq_ite, if_congr known rfl rfl]

/-- One more pair is the last one of its address, and the first one only of a new line. -/
theorem insert (records : Records pairs map) (address line : Nat) :
    Records (pairs ++ [(address, line)]) (map.insert address line) where
  lines other := by
    rw [line?_insert, List.reverse_append, List.reverse_singleton, List.singleton_append,
      List.find?_cons, records.lines]
    by_cases same : address = other <;> simp [same]
  addresses other := by
    rw [address?_insert, List.find?_append, records.addresses]
    by_cases same : line = other <;>
      cases pairs.find? fun pair => pair.2 = other <;> simp [same]
  size := records.size_insert address line

end Records

theorem records_ofList (pairs : List (Nat × Nat)) : Records pairs (ofList pairs) := by
  induction pairs using List.reverseRecOn with
  | nil => exact .empty
  | append_singleton pairs pair induction =>
      rw [ofList_append]
      exact induction.insert pair.1 pair.2

/-! ## Consistency -/

namespace Consistent

theorem empty : Consistent empty where
  leadsBack _ _ found := by simp at found
  reached _ _ found := by simp at found

/-- A new address has its line alone, and is not that of an earlier line. -/
theorem insert {map : SourceMap} (consistent : Consistent map) {address : Nat}
    (new : map.line? address = none) (line : Nat) : Consistent (map.insert address line) where
  leadsBack other found known := by
    rw [address?_insert] at known
    rw [line?_insert]
    split at known
    · rename_i same
      subst same
      cases earlier : map.address? line with
      | none =>
          obtain rfl : address = found := by simpa [earlier] using known
          simp
      | some first =>
          obtain rfl : first = found := by simpa [earlier] using known
          simp [consistent.leadsBack line first earlier]
    · have back := consistent.leadsBack other found known
      have apart : address ≠ found := by
        rintro rfl
        simp [new] at back
      rw [if_neg apart, back]
  reached found other known := by
    rw [line?_insert] at known
    rw [address?_insert]
    split at known
    · obtain rfl := Option.some.inj known
      cases map.address? line <;> simp
    · obtain ⟨first, there⟩ := consistent.reached found other known
      rw [there]
      exact ⟨first, by simp⟩

end Consistent

/-- Distinct addresses keep the directions of a map together. -/
theorem consistent_ofList {pairs : List (Nat × Nat)} (distinct : (pairs.map Prod.fst).Nodup) :
    Consistent (ofList pairs) := by
  induction pairs using List.reverseRecOn with
  | nil => exact .empty
  | append_singleton pairs pair induction =>
      rw [List.map_append, List.map_singleton, ← List.concat_eq_append,
        List.nodup_concat] at distinct
      rw [ofList_append]
      exact (induction distinct.2).insert
        (((records_ofList pairs).line?_eq_none_iff pair.1).mpr distinct.1) pair.2

-- A line whose only cell another line takes over is not led back to.
example : (ofList [(4, 1), (4, 2)]).address? 1 = some 4 ∧
    (ofList [(4, 1), (4, 2)]).line? 4 = some 2 := by
  decide +kernel

end ClassroomCpu.SourceMap
