import ClassroomCpu.Proofs.Event.Delivery

/-!
# How a hub files its listeners

The table of a hub has an entry for each topic of a live listener and holds the
numbers of its listeners in their order.  The listeners of a topic and those of
every event, merged by number, are in the order of all subscriptions.
-/

namespace ClassroomCpu

namespace Hub

/-- The numbers of the live listeners of a topic. -/
def under (live : List Subscription) (topic : String) : List Nat :=
  (live.filter fun subscription => subscription.topic = topic).map Subscription.listener

/-- The table holds the live listeners under their topics, and no topic without a listener. -/
structure Files (entries : List (String × List Nat)) (live : List Subscription) : Prop where
  lookup : ∀ topic, (entries.lookup topic).getD [] = under live topic
  distinct : (entries.map Prod.fst).Nodup
  inhabited : ∀ entry ∈ entries, entry.2 ≠ []

variable {entries : List (String × List Nat)} {live : List Subscription}

theorem lookup_file (topic : String) (listener : Nat) (entries : List (String × List Nat))
    (other : String) :
    ((file topic listener entries).lookup other).getD [] =
      (entries.lookup other).getD [] ++ if topic = other then [listener] else [] := by
  induction entries with
  | nil =>
      by_cases same : topic = other
      · simp [file, same]
      · have differs : (other == topic) = false := by simpa using Ne.symm same
        simp [file, same, List.lookup_cons, differs]
  | cons entry entries induction =>
      rw [file]
      by_cases here : entry.1 = topic
      · rw [if_pos here, List.lookup_cons, List.lookup_cons, here]
        by_cases same : other = topic
        · simp [same]
        · have differs : (other == topic) = false := by simpa using same
          simp [differs, Ne.symm same]
      · rw [if_neg here, List.lookup_cons, List.lookup_cons]
        by_cases same : other = entry.1
        · have apart : topic ≠ other := by
            rw [same]
            exact Ne.symm here
          simp [same, Ne.symm here]
        · have differs : (other == entry.1) = false := by simpa using same
          simpa [differs] using induction

theorem keys_file (topic : String) (listener : Nat) (entries : List (String × List Nat)) :
    (file topic listener entries).map Prod.fst =
      if topic ∈ entries.map Prod.fst then entries.map Prod.fst
      else entries.map Prod.fst ++ [topic] := by
  induction entries with
  | nil => simp [file]
  | cons entry entries induction =>
      rw [file]
      by_cases here : entry.1 = topic
      · simp [here]
      · rw [if_neg here, List.map_cons, induction]
        by_cases later : topic ∈ entries.map Prod.fst
        · simp [later]
        · have nowhere : topic ∉ (entry :: entries).map Prod.fst := by
            simp only [List.map_cons, List.mem_cons, not_or]
            exact ⟨Ne.symm here, later⟩
          rw [if_neg later, if_neg nowhere, List.map_cons, List.cons_append]

theorem inhabited_file (topic : String) (listener : Nat)
    (inhabited : ∀ entry ∈ entries, entry.2 ≠ []) :
    ∀ entry ∈ file topic listener entries, entry.2 ≠ [] := by
  induction entries with
  | nil => simp [file]
  | cons first entries induction =>
      intro entry member
      rw [file] at member
      split at member
      · rcases List.mem_cons.mp member with rfl | later
        · simp
        · exact inhabited entry (List.mem_cons_of_mem _ later)
      · rcases List.mem_cons.mp member with rfl | later
        · exact inhabited _ List.mem_cons_self
        · exact induction (fun other among => inhabited other (List.mem_cons_of_mem _ among))
            entry later

theorem lookup_eq_none_of_notMem {topic : String} (nowhere : topic ∉ entries.map Prod.fst) :
    entries.lookup topic = none := by
  rw [List.lookup_eq_none_iff]
  intro entry member
  have apart : topic ≠ entry.1 := by
    rintro rfl
    exact nowhere (List.mem_map_of_mem member)
  simpa using apart

theorem lookup_refile {topic : String} (listeners : List Nat)
    (distinct : (entries.map Prod.fst).Nodup) (filed : topic ∈ entries.map Prod.fst)
    (other : String) :
    ((refile topic listeners entries).lookup other).getD [] =
      if topic = other then listeners else (entries.lookup other).getD [] := by
  induction entries with
  | nil => simp at filed
  | cons entry entries induction =>
      rw [List.map_cons, List.nodup_cons] at distinct
      rw [refile]
      by_cases here : entry.1 = topic
      · rw [if_pos here]
        by_cases same : topic = other
        · -- The topic does not come again behind its own entry.
          have nowhere : entries.lookup other = none := by
            rw [← same, ← here]
            exact lookup_eq_none_of_notMem distinct.1
          cases listeners with
          | nil => simp [same, nowhere]
          | cons listener listeners => simp [same]
        · have differs : (other == topic) = false := by simpa using Ne.symm same
          have passed : (entry :: entries).lookup other = entries.lookup other := by
            rw [List.lookup_cons, here, differs]
          rw [if_neg same, passed]
          cases listeners with
          | nil => rfl
          | cons listener listeners => simp [List.lookup_cons, differs]
      · have later : topic ∈ entries.map Prod.fst := by
          simpa [Ne.symm here] using filed
        rw [if_neg here, List.lookup_cons, List.lookup_cons]
        by_cases same : other = entry.1
        · have apart : topic ≠ other := by
            rw [same]
            exact Ne.symm here
          simp [same, Ne.symm here]
        · have differs : (other == entry.1) = false := by simpa using same
          simpa [differs] using induction distinct.2 later

theorem sublist_refile (topic : String) (listeners : List Nat) :
    ((refile topic listeners entries).map Prod.fst).Sublist (entries.map Prod.fst) := by
  induction entries with
  | nil => exact .refl _
  | cons entry entries induction =>
      rw [refile]
      split
      · rename_i here
        split
        · exact List.sublist_cons_self _ _
        · rw [List.map_cons, List.map_cons, here]
      · exact induction.cons_cons _

theorem inhabited_refile (topic : String) (listeners : List Nat)
    (inhabited : ∀ entry ∈ entries, entry.2 ≠ []) :
    ∀ entry ∈ refile topic listeners entries, entry.2 ≠ [] := by
  induction entries with
  | nil => simp [refile]
  | cons first entries induction =>
      have later : ∀ entry ∈ entries, entry.2 ≠ [] := fun entry among =>
        inhabited entry (List.mem_cons_of_mem _ among)
      intro entry member
      rw [refile] at member
      split at member
      · split at member
        · exact later entry member
        · rename_i some
          rcases List.mem_cons.mp member with rfl | among
          · simpa using some
          · exact later entry among
      · rcases List.mem_cons.mp member with rfl | among
        · exact inhabited _ List.mem_cons_self
        · exact induction later entry among

namespace Files

theorem nil : Files [] [] where
  lookup _ := rfl
  distinct := List.nodup_nil
  inhabited := by simp

theorem isEmpty_eq (files : Files entries live) : entries.isEmpty = live.isEmpty := by
  cases entries with
  | nil =>
      cases live with
      | nil => rfl
      | cons subscription live =>
          have found := files.lookup subscription.topic
          simp [under] at found
  | cons entry entries =>
      cases live with
      | nil =>
          have found := files.lookup entry.1
          have some := files.inhabited entry List.mem_cons_self
          rw [List.lookup_cons, beq_self_eq_true] at found
          exact absurd found some
      | cons subscription live => rfl

theorem file (files : Files entries live) (subscription : Subscription) :
    Files (Hub.file subscription.topic subscription.listener entries)
      (live ++ [subscription]) where
  lookup topic := by
    rw [lookup_file, files.lookup, under, under, List.filter_append,
      List.map_append]
    by_cases same : subscription.topic = topic <;> simp [same]
  distinct := by
    rw [keys_file]
    split
    · exact files.distinct
    · rename_i nowhere
      refine List.nodup_append.mpr ⟨files.distinct, List.nodup_singleton _, ?_⟩
      intro topic filed other member same
      rw [same, List.mem_singleton.mp member] at filed
      exact nowhere filed
  inhabited := inhabited_file _ _ files.inhabited

/--
Without one of its listeners, which no other live listener shares its number with, the entry of
a topic is that of the list without the listener.
-/
theorem refile (files : Files entries live) (subscription : Subscription)
    {listeners : List Nat} (found : entries.lookup subscription.topic = some listeners)
    (alone : ∀ other ∈ live, other.listener = subscription.listener → other = subscription) :
    Files (Hub.refile subscription.topic
        (listeners.filter (· ≠ subscription.listener)) entries)
      (live.filter fun other => other.listener ≠ subscription.listener) where
  lookup topic := by
    have filed : subscription.topic ∈ entries.map Prod.fst := by
      by_contra nowhere
      rw [lookup_eq_none_of_notMem nowhere] at found
      simp at found
    have before := files.lookup subscription.topic
    rw [found, Option.getD_some] at before
    rw [lookup_refile _ files.distinct filed]
    split
    · rename_i same
      subst same
      rw [before, under, under, List.filter_map, List.filter_filter,
        List.filter_filter]
      congr 1
      apply List.filter_congr
      intro other _
      simp [Bool.and_comm]
    · rename_i differs
      rw [files.lookup, under, under, List.filter_filter]
      congr 1
      apply List.filter_congr
      intro other member
      by_cases same : other.topic = topic
      · have apart : other.listener ≠ subscription.listener := by
          intro number
          rw [alone other member number] at same
          exact differs same
        simp [same, apart]
      · simp [same]
  distinct := files.distinct.sublist (sublist_refile _ _)
  inhabited := inhabited_refile _ _ files.inhabited

end Files

/-! ## The order of the listeners -/

theorem merge_of_less_left (first : Nat) (left : List Nat) {right : List Nat}
    (less : ∀ number ∈ right, first < number) :
    List.merge (first :: left) right (fun named every => named < every) =
      first :: List.merge left right fun named every => named < every := by
  cases right with
  | nil => simp
  | cons number right => simp [less number List.mem_cons_self]

theorem merge_of_less_right (first : Nat) {left : List Nat} (right : List Nat)
    (less : ∀ number ∈ left, first < number) :
    List.merge left (first :: right) (fun named every => named < every) =
      first :: List.merge left right fun named every => named < every := by
  cases left with
  | nil => simp
  | cons number left => simp [Nat.le_of_lt (less number List.mem_cons_self)]

/-- Two selections from an ascending list, merged by number, are the selection of both. -/
theorem merge_selections (named every : Subscription → Bool) (live : List Subscription)
    (apart : ∀ subscription, named subscription = true → every subscription = false)
    (ascending : live.Pairwise fun first second => first.listener < second.listener) :
    List.merge ((live.filter named).map Subscription.listener)
        ((live.filter every).map Subscription.listener) (fun left right => left < right) =
      (live.filter fun subscription => every subscription || named subscription).map
        Subscription.listener := by
  induction live with
  | nil => simp
  | cons subscription live induction =>
      obtain ⟨before, later⟩ := List.pairwise_cons.mp ascending
      have rest := induction later
      have behind : ∀ (chosen : Subscription → Bool),
          ∀ number ∈ (live.filter chosen).map Subscription.listener,
            subscription.listener < number := by
        intro chosen number member
        obtain ⟨other, among, rfl⟩ := List.mem_map.mp member
        exact before other (List.mem_filter.mp among).1
      cases asked : named subscription with
      | true =>
          have notEvery := apart subscription asked
          simp only [List.filter_cons, asked, notEvery, Bool.or_true, if_true, List.map_cons,
            Bool.false_eq_true, if_false]
          rw [merge_of_less_left _ _ (behind every), rest]
      | false =>
          cases wantsAll : every subscription with
          | true =>
              simp only [List.filter_cons, asked, wantsAll, Bool.or_false, if_true, List.map_cons,
                Bool.false_eq_true, if_false]
              rw [merge_of_less_right _ _ (behind named), rest]
          | false => simpa [List.filter_cons, asked, wantsAll] using rest

/-- No event has the topic of those who want every event. -/
theorem topic_ne_everyTopic (event : Event) : event.topic ≠ everyTopic := by
  intro same
  have first := congrArg (fun topic => topic.toList.head?) same
  cases event <;> simp [Event.topic, everyTopic] at first

end Hub

end ClassroomCpu
