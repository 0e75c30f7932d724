import Mathlib.Data.List.Nodup
import TreeDump.Tree.Builder

/-!
# Building in place is recursion

Cells are filled in place, and a cell is linked to that of its parent long before it is filled
itself.  What the value of each cell is going to be is therefore fixed as soon as the cell is made:
`Settles` says that a valuation of the cells is right about those on the stack, whose nodes are
known, and about the filled ones, whose values are read off from those of the cells that they know.

* `Computes`: what a builder has to keep to for each node by itself.
* `Settles.turn`, `Settles.finish`: the valuation is kept while cells are filled.
* `Computes.build_eq`: the value that is built is the one that each node was to have.
-/

namespace TreeDump.Builder

variable {Tree Cell Value : Type}

/-- That a builder fills the cell of each node as `target` has it, as long as it does so for its
children.  `links` tells the numbers that a cell knows. -/
structure Computes (b : Builder Tree Cell Value) (links : Cell → List Nat)
    (target : Tree → Value) : Prop where
  congr : ∀ ⦃cell : Cell⦄ ⦃value other : Nat → Value⦄,
    (∀ number ∈ links cell, value number = other number) → b.value value cell = b.value other cell
  blank : ∀ tree, links (b.blank tree) = []
  links_fill : ∀ made tree,
    links (b.fill made tree (b.blank tree)) ⊆ List.range' made (b.children tree).length
  value_fill : ∀ made tree (value : Nat → Value),
    (List.range' made (b.children tree).length).map value = (b.children tree).map target →
      b.value value (b.fill made tree (b.blank tree)) = target tree

section

variable {b : Builder Tree Cell Value}

/-! ## Cells after a turn -/

theorem fillCell_size (cells : Array Cell) (tree : Tree) (number : Nat) :
    (b.fillCell cells tree number).size = cells.size + (b.children tree).length := by
  simp [fillCell]

theorem fillCell_self {cells : Array Cell} {tree : Tree} {number : Nat} {cell : Cell}
    (hCell : cells[number]? = some cell) :
    (b.fillCell cells tree number)[number]? = some (b.fill cells.size tree cell) := by
  have hLt : number < cells.size := (Array.getElem?_eq_some_iff.mp hCell).1
  rw [fillCell, Array.getElem?_append_left (by simpa using hLt), Array.getElem?_modify,
    if_pos rfl, hCell]
  rfl

theorem fillCell_old {cells : Array Cell} {tree : Tree} {number other : Nat}
    (hLt : other < cells.size) (hNe : other ≠ number) :
    (b.fillCell cells tree number)[other]? = cells[other]? := by
  rw [fillCell, Array.getElem?_append_left (by simpa using hLt), Array.getElem?_modify,
    if_neg hNe.symm]

theorem fillCell_new {cells : Array Cell} {tree : Tree} {number other : Nat}
    (hLe : cells.size ≤ other) :
    (b.fillCell cells tree number)[other]?
      = (b.children tree)[other - cells.size]?.map b.blank := by
  rw [fillCell, Array.getElem?_append_right (by simpa using hLe)]
  simp

theorem mem_numbered {tree child : Tree} {made number : Nat} :
    (child, number) ∈ b.numbered tree made
      ↔ made ≤ number ∧ (b.children tree)[number - made]? = some child := by
  rw [numbered, List.mem_iff_getElem?]
  constructor
  · rintro ⟨i, hi⟩
    obtain ⟨hChild, hNumber⟩ := List.getElem?_zip_eq_some.mp hi
    obtain ⟨_, rfl⟩ := List.getElem?_eq_some_iff.mp hNumber
    simpa using hChild
  · rintro ⟨hLe, hChild⟩
    have hLt : number - made < (b.children tree).length :=
      (List.getElem?_eq_some_iff.mp hChild).1
    refine ⟨number - made, List.getElem?_zip_eq_some.mpr ⟨hChild, ?_⟩⟩
    rw [List.getElem?_range' hLt]
    simp [Nat.add_sub_cancel' hLe]

theorem numbered_numbers (tree : Tree) (made : Nat) :
    (b.numbered tree made).map Prod.snd = List.range' made (b.children tree).length :=
  List.map_snd_zip (by simp)

/-! ## What cells are going to be -/

variable {links : Cell → List Nat} {target : Tree → Value}

/-- `value` tells for each cell the value that it is going to have. -/
structure Settles (b : Builder Tree Cell Value) (links : Cell → List Nat) (target : Tree → Value)
    (cells : Array Cell) (stack : List (Tree × Nat)) (value : Nat → Value) : Prop where
  /-- A cell on the stack is as it was made. -/
  bare : ∀ ⦃tree number⦄, (tree, number) ∈ stack → cells[number]? = some (b.blank tree)
  once : (stack.map Prod.snd).Nodup
  waiting : ∀ ⦃tree number⦄, (tree, number) ∈ stack → value number = target tree
  filled : ∀ ⦃number cell⦄, cells[number]? = some cell → number ∉ stack.map Prod.snd →
    value number = b.value value cell
  later : ∀ ⦃number cell⦄, cells[number]? = some cell → ∀ child ∈ links cell,
    number < child ∧ child < cells.size

namespace Settles

variable {cells : Array Cell} {stack : List (Tree × Nat)} {value : Nat → Value} {tree : Tree}
  {number : Nat}

/-- At the start there is the cell of the root only. -/
theorem start (hComputes : b.Computes links target) (tree : Tree) :
    Settles b links target #[b.blank tree] [(tree, 0)] (fun _ => target tree) where
  bare := by
    intro other number hMem
    obtain ⟨rfl, rfl⟩ := Prod.mk.inj (List.mem_singleton.mp hMem)
    rfl
  once := by simp
  waiting := by
    intro other number hMem
    obtain ⟨rfl, rfl⟩ := Prod.mk.inj (List.mem_singleton.mp hMem)
    rfl
  filled := by
    intro number cell hCell hNotMem
    obtain ⟨hLt, -⟩ := Array.getElem?_eq_some_iff.mp hCell
    have hZero : number = 0 := by simpa using hLt
    exact absurd (by simp [hZero]) hNotMem
  later := by
    intro number cell hCell child hChild
    obtain ⟨hLt, rfl⟩ := Array.getElem?_eq_some_iff.mp hCell
    have hZero : number = 0 := by simpa using hLt
    subst hZero
    rw [List.getElem_toArray, List.getElem_cons_zero, hComputes.blank] at hChild
    cases hChild

/-- The valuation after a turn, which gave the children of `tree` the numbers from `made` on. -/
def extend (b : Builder Tree Cell Value) (target : Tree → Value) (made : Nat) (tree : Tree)
    (value : Nat → Value) (number : Nat) : Value :=
  match (b.children tree)[number - made]? with
  | some child => if made ≤ number then target child else value number
  | none => value number

theorem extend_old {made : Nat} (hLt : number < made) :
    extend b target made tree value number = value number := by
  unfold extend
  split
  · rw [if_neg (by omega)]
  · rfl

theorem extend_new {made : Nat} {child : Tree} (hLe : made ≤ number)
    (hChild : (b.children tree)[number - made]? = some child) :
    extend b target made tree value number = target child := by
  simp only [extend, hChild, if_pos hLe]

theorem map_extend_children (made : Nat) :
    (List.range' made (b.children tree).length).map (extend b target made tree value)
      = (b.children tree).map target := by
  apply List.ext_getElem (by simp)
  intro i h _
  have hLt : i < (b.children tree).length := by simpa using h
  rw [List.getElem_map, List.getElem_map, List.getElem_range', Nat.one_mul]
  exact extend_new (by omega) (by simp [hLt])

theorem number_lt (h : Settles b links target cells stack value)
    (hMem : number ∈ stack.map Prod.snd) : number < cells.size := by
  obtain ⟨⟨tree, _⟩, hPair, rfl⟩ := List.mem_map.mp hMem
  exact (Array.getElem?_eq_some_iff.mp (h.bare hPair)).1

theorem mem_next {made : Nat} :
    number ∈ ((b.numbered tree made).reverse ++ stack).map Prod.snd
      ↔ (made ≤ number ∧ number < made + (b.children tree).length) ∨
        number ∈ stack.map Prod.snd := by
  rw [List.map_append, List.map_reverse, numbered_numbers, List.mem_append, List.mem_reverse,
    List.mem_range'_1]

/-- A turn keeps the valuation and extends it to the cells that it makes. -/
theorem turn (hComputes : b.Computes links target)
    (h : Settles b links target cells ((tree, number) :: stack) value) :
    Settles b links target (b.fillCell cells tree number)
      ((b.numbered tree cells.size).reverse ++ stack) (extend b target cells.size tree value) := by
  have hBare : cells[number]? = some (b.blank tree) := h.bare List.mem_cons_self
  have hOnce : number ∉ stack.map Prod.snd ∧ (stack.map Prod.snd).Nodup :=
    List.nodup_cons.mp h.once
  have hStack : ∀ {other : Tree} {i : Nat}, (other, i) ∈ stack → i < cells.size ∧ i ≠ number := by
    intro other i hMem
    have hNumber : i ∈ stack.map Prod.snd := List.mem_map_of_mem hMem
    exact ⟨h.number_lt (List.mem_cons_of_mem _ hNumber), fun hEq => hOnce.1 (hEq ▸ hNumber)⟩
  constructor
  case bare =>
    intro other i hMem
    rcases List.mem_append.mp hMem with hNew | hOld
    · obtain ⟨hLe, hChild⟩ := mem_numbered.mp (List.mem_reverse.mp hNew)
      rw [fillCell_new hLe, hChild]
      rfl
    · rw [fillCell_old (hStack hOld).1 (hStack hOld).2]
      exact h.bare (List.mem_cons_of_mem _ hOld)
  case once =>
    rw [List.map_append, List.map_reverse, numbered_numbers, List.nodup_append']
    refine ⟨List.nodup_reverse.mpr List.nodup_range', hOnce.2, ?_⟩
    intro i hNew hOld
    have hLe := (List.mem_range'_1.mp (List.mem_reverse.mp hNew)).1
    have hLt := h.number_lt (List.mem_cons_of_mem number hOld)
    omega
  case waiting =>
    intro other i hMem
    rcases List.mem_append.mp hMem with hNew | hOld
    · obtain ⟨hLe, hChild⟩ := mem_numbered.mp (List.mem_reverse.mp hNew)
      exact extend_new hLe hChild
    · rw [extend_old (hStack hOld).1]
      exact h.waiting (List.mem_cons_of_mem _ hOld)
  case filled =>
    intro i cell hCell hNotMem
    rw [mem_next, not_or] at hNotMem
    have hSize : i < cells.size + (b.children tree).length := by
      rw [← fillCell_size cells tree number]
      exact (Array.getElem?_eq_some_iff.mp hCell).1
    have hLt : i < cells.size := by omega
    rw [extend_old hLt]
    by_cases hEq : i = number
    · subst hEq
      rw [fillCell_self hBare, Option.some_inj] at hCell
      rw [← hCell, hComputes.value_fill _ _ _ (map_extend_children cells.size),
        h.waiting List.mem_cons_self]
    · rw [fillCell_old hLt hEq] at hCell
      rw [h.filled hCell (List.not_mem_cons_of_ne_of_not_mem hEq hNotMem.2)]
      exact hComputes.congr fun child hChild => (extend_old (h.later hCell child hChild).2).symm
  case later =>
    intro i cell hCell child hChild
    rw [fillCell_size]
    by_cases hLt : i < cells.size
    · by_cases hEq : i = number
      · subst hEq
        rw [fillCell_self hBare, Option.some_inj] at hCell
        subst hCell
        have := List.mem_range'_1.mp (hComputes.links_fill _ _ hChild)
        omega
      · rw [fillCell_old hLt hEq] at hCell
        have := h.later hCell child hChild
        omega
    · rw [fillCell_new (by omega)] at hCell
      obtain ⟨other, -, rfl⟩ := Option.map_eq_some_iff.mp hCell
      rw [hComputes.blank] at hChild
      cases hChild

/-- The valuation when the stack is empty: it tells the same of each cell that was there, and all
cells are filled. -/
theorem finish (hComputes : b.Computes links target)
    (h : Settles b links target cells stack value) :
    ∃ final, Settles b links target (b.fillCells cells stack) [] final ∧
      cells.size ≤ (b.fillCells cells stack).size ∧
      ∀ number < cells.size, final number = value number := by
  induction cells, stack using fillCells.induct b generalizing value with
  | case1 cells =>
    rw [fillCells]
    exact ⟨value, h, Nat.le_refl _, fun _ _ => rfl⟩
  | case2 cells tree number rest ih =>
    obtain ⟨final, hFinal, hSize, hSame⟩ := ih (h.turn hComputes)
    rw [fillCells]
    rw [fillCell_size] at hSize hSame
    refine ⟨final, hFinal, by omega, ?_⟩
    intro i hLt
    rw [hSame i (by omega), extend_old hLt]

end Settles

/-! ## Reading the cells -/

variable [Inhabited Value]

/-- Where `value` is right about all cells, it tells the values of those that are placed. -/
theorem valueOfNumber_foldr (hComputes : b.Computes links target) {cells : Array Cell}
    {value : Nat → Value} (h : Settles b links target cells [] value) (before : List Cell) :
    ∀ last : List Cell, before ++ last = cells.toList →
      (last.foldr (b.placeValue cells.size) #[]).size = last.length ∧
        ∀ number, before.length ≤ number → number < cells.size →
          valueOfNumber cells.size (last.foldr (b.placeValue cells.size) #[]) number
            = value number := by
  intro last
  induction last generalizing before with
  | nil =>
    intro hCells
    have hSize : before.length = cells.size := by
      rw [← Array.length_toList, ← hCells, List.append_nil]
    exact ⟨rfl, fun number hLe hLt => by omega⟩
  | cons cell last ih =>
    intro hCells
    have hSize : before.length + (last.length + 1) = cells.size := by
      rw [← Array.length_toList, ← hCells, List.length_append, List.length_cons]
    obtain ⟨hValues, hLast⟩ := ih (before ++ [cell]) (by rw [List.append_assoc]; exact hCells)
    rw [List.length_append, List.length_singleton] at hLast
    rw [List.foldr_cons]
    generalize last.foldr (b.placeValue cells.size) #[] = values at hValues hLast
    have hCell : cells[before.length]? = some cell := by
      rw [← Array.getElem?_toList, ← hCells]
      simp
    have hValue : b.value (valueOfNumber cells.size values) cell = value before.length := by
      rw [h.filled hCell (by simp)]
      apply hComputes.congr
      intro child hChild
      obtain ⟨hLater, hLt⟩ := h.later hCell child hChild
      exact hLast child hLater hLt
    refine ⟨by rw [placeValue, Array.size_push, hValues, List.length_cons], ?_⟩
    intro number hLe hLt
    rcases Nat.eq_or_lt_of_le hLe with rfl | hGt
    · have hIndex : cells.size - 1 - before.length = values.size := by omega
      rw [← hValue, valueOfNumber, placeValue, hIndex]
      simp
    · have hIndex : cells.size - 1 - number < values.size := by omega
      rw [← hLast number hGt hLt]
      simp only [valueOfNumber, placeValue, Array.getD_eq_getD_getElem?,
        Array.getElem?_push_lt hIndex, Array.getElem?_eq_getElem hIndex]

/-- The value that is built of a tree is the one that it was to have. -/
theorem Computes.build_eq (hComputes : b.Computes links target) (tree : Tree) :
    b.build tree = target tree := by
  obtain ⟨final, hFinal, hSize, hSame⟩ := (Settles.start hComputes tree).finish hComputes
  have hLt : 0 < (b.fillCells #[b.blank tree] [(tree, 0)]).size :=
    Nat.lt_of_lt_of_le (by simp) hSize
  have hRead := (valueOfNumber_foldr hComputes hFinal [] _ rfl).2 0 (Nat.zero_le _) hLt
  rw [build, assemble, Array.length_toList]
  exact hRead.trans (hSame 0 (by simp))

end

end TreeDump.Builder
