import Mathlib.Data.List.Sort

structure PriorityQueue {α β : Type*} [LinearOrder β] (prio : α → β) where
  items : List α
  falling : items.Pairwise fun x y => prio y ≤ prio x

namespace PriorityQueue

variable {α β : Type*} [LinearOrder β] {prio : α → β}

def empty : PriorityQueue prio := ⟨[], .nil⟩

def place (prio : α → β) (a : α) (items : List α) : List α := items.orderedInsert (fun x y => prio y < prio x) a

theorem place_of_lt {a b : α} (items : List α) (urgent : prio b < prio a) :
    place prio a (b :: items) = a :: b :: items := if_pos urgent

theorem place_of_not_lt {a b : α} (items : List α) (urgent : ¬ prio b < prio a) :
    place prio a (b :: items) = b :: place prio a items := if_neg urgent

theorem place_falling (a : α) {items : List α} (falling : items.Pairwise fun x y => prio y ≤ prio x) :
    (place prio a items).Pairwise fun x y => prio y ≤ prio x := by
  induction items with
  | nil => exact List.pairwise_singleton _ _
  | cons b items ih =>
    obtain ⟨first, rest⟩ := List.pairwise_cons.mp falling
    by_cases urgent : prio b < prio a
    · rw [place_of_lt items urgent, List.pairwise_cons]
      refine ⟨?_, falling⟩
      intro x member
      rcases List.mem_cons.mp member with rfl | later
      · exact urgent.le
      · exact (first x later).trans urgent.le
    · rw [place_of_not_lt items urgent, List.pairwise_cons]
      refine ⟨?_, ih rest⟩
      intro x member
      rcases (List.mem_orderedInsert _).mp member with rfl | later
      · exact not_lt.mp urgent
      · exact first x later

def insert (q : PriorityQueue prio) (a : α) : PriorityQueue prio := ⟨place prio a q.items, place_falling a q.falling⟩

def pop (q : PriorityQueue prio) : Option (α × PriorityQueue prio) :=
  match q with
  | ⟨[], _⟩ => none
  | ⟨a :: items, falling⟩ => some (a, ⟨items, falling.of_cons⟩)

variable {q r : PriorityQueue prio} {a : α}

theorem mem_insert {x : α} : x ∈ (q.insert a).items ↔ x = a ∨ x ∈ q.items := List.mem_orderedInsert _

theorem length_insert : (q.insert a).items.length = q.items.length + 1 := List.orderedInsert_length _ _ _

/-- Of each priority, what is put comes last. -/
theorem filter_insert (p : β) :
    (q.insert a).items.filter (fun x => prio x = p) =
      q.items.filter (fun x => prio x = p) ++ [a].filter (fun x => prio x = p) := by
  obtain ⟨items, falling⟩ := q
  change (place prio a items).filter _ = items.filter _ ++ _
  induction items with
  | nil => rfl
  | cons b items ih =>
    obtain ⟨first, rest⟩ := List.pairwise_cons.mp falling
    by_cases urgent : prio b < prio a
    · rw [place_of_lt items urgent, ← List.singleton_append, List.filter_append]
      by_cases here : prio a = p
      · -- everything from `b` on is less urgent
        have none : (b :: items).filter (fun x => prio x = p) = [] := by
          rw [List.filter_eq_nil_iff]
          intro x member
          have less : prio x < prio a := by
            rcases List.mem_cons.mp member with rfl | later
            · exact urgent
            · exact (first x later).trans_lt urgent
          simpa [here] using (here ▸ less).ne
        rw [none, List.append_nil, List.nil_append]
      · have none : [a].filter (fun x => prio x = p) = [] := by simp [here]
        rw [none, List.append_nil, List.nil_append]
    · rw [place_of_not_lt items urgent, List.filter_cons, List.filter_cons]
      split
      · rw [ih rest, List.cons_append]
      · exact ih rest

theorem pop_items (popped : q.pop = some (a, r)) : q.items = a :: r.items := by
  obtain ⟨items, falling⟩ := q
  cases items with
  | nil => cases popped
  | cons b items =>
    cases popped
    rfl

theorem pop_urgent (popped : q.pop = some (a, r)) : ∀ x ∈ q.items, prio x ≤ prio a := by
  have falling := q.falling
  rw [pop_items popped] at falling ⊢
  intro x member
  rcases List.mem_cons.mp member with rfl | later
  · exact le_refl _
  · exact List.rel_of_pairwise_cons falling later

theorem pop_isSome_iff : q.pop.isSome ↔ q.items ≠ [] := by
  obtain ⟨items, falling⟩ := q
  cases items <;> simp [pop]

end PriorityQueue
