/-!
# Weights of lists

Loops that work on a stack end because what is on the stack weighs less after each turn.
-/

namespace TreeDump

variable {α : Type}

/-- What the elements of a list weigh together. -/
def weigh (weight : α → Nat) : List α → Nat
  | [] => 0
  | a :: rest => weight a + weigh weight rest

variable {weight : α → Nat}

theorem weigh_append (upper lower : List α) :
    weigh weight (upper ++ lower) = weigh weight upper + weigh weight lower := by
  induction upper with
  | nil => rw [List.nil_append, weigh, Nat.zero_add]
  | cons a upper ih => rw [List.cons_append, weigh, weigh, ih, Nat.add_assoc]

theorem weigh_reverse (list : List α) : weigh weight list.reverse = weigh weight list := by
  induction list with
  | nil => rfl
  | cons a rest ih =>
    rw [List.reverse_cons, weigh_append, ih, weigh, weigh, weigh, Nat.add_zero, Nat.add_comm]

theorem weigh_map {β : Type} (f : β → α) (list : List β) :
    weigh weight (list.map f) = weigh (fun b => weight (f b)) list := by
  induction list with
  | nil => rfl
  | cons b rest ih => rw [List.map_cons, weigh, weigh, ih]

/-- Elements of the same weight. -/
theorem weigh_of_eq {list : List α} {n : Nat} (hWeight : ∀ a ∈ list, weight a = n) :
    weigh weight list = list.length * n := by
  induction list with
  | nil => rw [weigh, List.length_nil, Nat.zero_mul]
  | cons a rest ih =>
    rw [weigh, hWeight a List.mem_cons_self,
      ih fun b hb => hWeight b (List.mem_cons_of_mem a hb), List.length_cons, Nat.succ_mul,
      Nat.add_comm]

end TreeDump
