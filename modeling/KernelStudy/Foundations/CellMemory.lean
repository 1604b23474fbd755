import Mathlib

namespace KernelStudy
namespace CellMemory

/-!
# Memories as functions from addresses

A memory is a total function from addresses to cells.  `load` reads a
contiguous range and `store` overwrites one.  The laws below say that a load
sees exactly the stored cells inside the range and the old cells outside it.
They are stated for arbitrary cell types, so the same lemmas serve a byte
memory and an array of sectors.
-/

variable {Cell : Type}

/-- The `length` cells from `start` upwards, in increasing address order. -/
def load (memory : Nat -> Cell) (start length : Nat) : List Cell :=
  (List.range length).map (fun offset => memory (start + offset))

/-- Overwrite the cells from `start` upwards by `cells`. -/
def store (memory : Nat -> Cell) (start : Nat) (cells : List Cell) : Nat -> Cell :=
  fun address =>
    if start ≤ address then (cells[address - start]?).getD (memory address) else memory address

@[simp] theorem length_load (memory : Nat -> Cell) (start length : Nat) :
    (load memory start length).length = length := by
  simp [load]

@[simp] theorem load_zero (memory : Nat -> Cell) (start : Nat) : load memory start 0 = [] := rfl

theorem getElem?_load (memory : Nat -> Cell) {start length offset : Nat} (inside : offset < length) :
    (load memory start length)[offset]? = some (memory (start + offset)) := by
  simp [load, inside]

/-- Two adjacent ranges read one after the other are the joint range. -/
theorem load_append (memory : Nat -> Cell) (start first second : Nat) :
    load memory start first ++ load memory (start + first) second =
      load memory start (first + second) := by
  simp only [load, List.range_add, List.map_append, List.map_map]
  congr 1
  apply List.map_congr_left
  intro offset _member
  simp only [Function.comp_apply, Nat.add_assoc]

theorem load_congr {left right : Nat -> Cell} {start length : Nat}
    (agree : forall offset, offset < length -> left (start + offset) = right (start + offset)) :
    load left start length = load right start length := by
  apply List.map_congr_left
  intro offset member
  exact agree offset (List.mem_range.mp member)

@[simp] theorem store_nil (memory : Nat -> Cell) (start : Nat) : store memory start [] = memory := by
  funext address
  simp [store]

theorem store_below (memory : Nat -> Cell) (cells : List Cell) {start address : Nat}
    (below : address < start) : store memory start cells address = memory address :=
  if_neg (Nat.not_le_of_lt below)

theorem store_above (memory : Nat -> Cell) {cells : List Cell} {start address : Nat}
    (above : start + cells.length ≤ address) :
    store memory start cells address = memory address := by
  have beyond : cells[address - start]? = none := List.getElem?_eq_none (by omega)
  simp only [store, beyond, Option.getD_none, ite_self]

/-- Storing a loaded range copies it cell by cell. -/
theorem store_load_inside (memory source : Nat -> Cell) {start from_ length offset : Nat}
    (inside : offset < length) :
    store memory start (load source from_ length) (start + offset) = source (from_ + offset) := by
  rw [store, if_pos (Nat.le_add_right start offset), Nat.add_sub_cancel_left,
    getElem?_load source inside, Option.getD_some]

/-- Stored cells are loaded again. -/
theorem load_store (memory : Nat -> Cell) (start : Nat) (cells : List Cell) :
    load (store memory start cells) start cells.length = cells := by
  apply List.ext_getElem?
  intro offset
  by_cases inside : offset < cells.length
  · rw [getElem?_load _ inside, store, if_pos (Nat.le_add_right start offset), Nat.add_sub_cancel_left,
      List.getElem?_eq_getElem inside, Option.getD_some]
  · have beyond : cells.length ≤ offset := Nat.le_of_not_lt inside
    rw [List.getElem?_eq_none beyond, List.getElem?_eq_none (by rwa [length_load])]

/-- Cells can be stored one after the other. -/
theorem store_cons (memory : Nat -> Cell) (start : Nat) (cell : Cell) (cells : List Cell) :
    store (store memory start [cell]) (start + 1) cells = store memory start (cell :: cells) := by
  funext address
  rcases Nat.lt_trichotomy address start with below | same | above
  · rw [store_below _ _ (by omega), store_below _ _ below, store_below _ _ below]
  · subst address
    rw [store_below _ _ (Nat.lt_succ_self start)]
    simp only [store, Nat.le_refl, if_true, Nat.sub_self, List.getElem?_cons_zero, Option.getD_some]
  · have later : address - start = address - (start + 1) + 1 := by omega
    have untouched : store memory start [cell] address = memory address :=
      store_above memory (by rw [List.length_singleton]; omega)
    rw [store, if_pos (by omega), untouched, store, if_pos (Nat.le_of_lt above), later,
      List.getElem?_cons_succ]

/-- Outside the stored range nothing changes. -/
theorem store_outside (memory : Nat -> Cell) {cells : List Cell} {start address : Nat}
    (outside : address < start \/ start + cells.length ≤ address) :
    store memory start cells address = memory address := by
  rcases outside with below | above
  · exact store_below memory cells below
  · exact store_above memory above

end CellMemory
end KernelStudy
