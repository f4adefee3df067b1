import Mathlib.Data.List.Basic
import Mathlib.Tactic.Ring

-- Buffers filled by nested loops in storage order: block after block of one
-- size, then rows of cells of one size.
namespace RowMajor
variable {α : Type} {n k : Nat} {block : Nat → List α}

def blocks (n : Nat) (block : Nat → List α) : List α := (List.range n).flatMap block

theorem blocks_succ (n : Nat) (block : Nat → List α) : blocks (n+1) block = blocks n block ++ block n := by
  simp [blocks,List.range_succ]

theorem blocks_length (uniform : ∀ i < n, (block i).length = k) : (blocks n block).length = n*k := by
  induction n with
  | zero => simp [blocks]
  | succ n ih =>
    have earlier := ih (fun i less => uniform i (Nat.lt_succ_of_lt less))
    rw [blocks_succ,List.length_append,earlier,uniform n (Nat.lt_succ_self n),Nat.succ_mul]

theorem blocks_getElem? {i j : Nat} (uniform : ∀ i < n, (block i).length = k) (outer : i < n) (inner : j < k) :
    (blocks n block)[i*k+j]? = (block i)[j]? := by
  induction n with
  | zero => cases outer
  | succ n ih =>
    have earlier : ∀ i < n, (block i).length = k := fun i less => uniform i (Nat.lt_succ_of_lt less)
    have length := blocks_length earlier
    rw [blocks_succ]
    rcases Nat.lt_succ_iff_lt_or_eq.mp outer with before | last
    · have inside : i*k+j < (blocks n block).length := by
        have : (i+1)*k ≤ n*k := Nat.mul_le_mul_right k before
        rw [length]
        rw [Nat.succ_mul] at this
        omega
      rw [List.getElem?_append_left inside]
      exact ih earlier before
    · subst last
      rw [List.getElem?_append_right (by omega),length]
      congr 1
      omega

def grid (h w : Nat) (cell : Nat → Nat → List α) : List α := blocks h (fun y => blocks w (cell y))

variable {h w : Nat} {cell : Nat → Nat → List α}

theorem grid_getElem? {y x c : Nat} (uniform : ∀ y < h, ∀ x < w, (cell y x).length = k)
    (row : y < h) (column : x < w) (inner : c < k) : (grid h w cell)[(y*w+x)*k+c]? = (cell y x)[c]? := by
  have offset : (y*w+x)*k+c = y*(w*k)+(x*k+c) := by
    rw [Nat.add_mul,Nat.mul_assoc,Nat.add_assoc]
  have within : x*k+c < w*k := by
    have : (x+1)*k ≤ w*k := Nat.mul_le_mul_right k column
    rw [Nat.succ_mul] at this
    omega
  rw [offset,grid,blocks_getElem? (fun y less => blocks_length (uniform y less)) row within]
  exact blocks_getElem? (uniform y row) column inner

theorem blocks_congr {block' : Nat → List α} (same : ∀ i < n, block i = block' i) : blocks n block = blocks n block' := by
  induction n with
  | zero => rfl
  | succ n ih =>
    rw [blocks_succ,blocks_succ,ih (fun i less => same i (Nat.lt_succ_of_lt less)),same n (Nat.lt_succ_self n)]

theorem blocks_map {β : Type} (f : α → β) (n : Nat) (block : Nat → List α) :
    (blocks n block).map f = blocks n (fun i => (block i).map f) := by
  simp [blocks,List.map_flatMap]

theorem grid_congr {cell' : Nat → Nat → List α} (same : ∀ y < h, ∀ x < w, cell y x = cell' y x) :
    grid h w cell = grid h w cell' :=
  blocks_congr (fun y row => blocks_congr (same y row))

theorem grid_map {β : Type} (f : α → β) (h w : Nat) (cell : Nat → Nat → List α) :
    (grid h w cell).map f = grid h w (fun y x => (cell y x).map f) := by
  simp only [grid,blocks_map]

theorem blocks_range (n k : Nat) : blocks n (fun i => (List.range k).map (i*k+·)) = List.range (n*k) := by
  induction n with
  | zero => simp [blocks]
  | succ n ih => rw [blocks_succ,ih,Nat.succ_mul,List.range_add]

-- The offsets of a grid of cells, in storage order.
theorem grid_range (h w k : Nat) :
    grid h w (fun y x => (List.range k).map (fun c => (y*w+x)*k+c)) = List.range (h*w*k) := by
  have row (y : Nat) : blocks w (fun x => (List.range k).map (fun c => (y*w+x)*k+c)) =
      (List.range (w*k)).map (y*(w*k)+·) := by
    rw [←blocks_range,blocks_map]
    apply blocks_congr
    intro x _
    rw [List.map_map]
    apply List.map_congr_left
    intro c _
    simp only [Function.comp_apply]
    ring
  simp only [grid,row,blocks_range,Nat.mul_assoc]

section Pixels
variable {f g : Nat → Nat → Nat → α}

-- Pixels of k channels each.
def pixels (h w k : Nat) (f : Nat → Nat → Nat → α) : List α := grid h w (fun y x => (List.range k).map (f y x))

theorem pixels_getElem? {y x c : Nat} (row : y < h) (column : x < w) (inner : c < k) :
    (pixels h w k f)[(y*w+x)*k+c]? = some (f y x c) := by
  unfold pixels
  rw [grid_getElem? (k := k) (by simp) row column inner]
  simp [inner]

theorem pixels_length (h w k : Nat) (f : Nat → Nat → Nat → α) : (pixels h w k f).length = h*w*k := by
  unfold pixels grid
  rw [blocks_length (fun _ _ => blocks_length (fun _ _ => by rw [List.length_map,List.length_range])),Nat.mul_assoc]

theorem pixels_congr (same : ∀ y < h, ∀ x < w, ∀ c < k, f y x c = g y x c) : pixels h w k f = pixels h w k g := by
  apply grid_congr
  intro y row x column
  apply List.map_congr_left
  intro c inner
  exact same y row x column c (List.mem_range.mp inner)

theorem pixels_map {β : Type} (g : α → β) (h w k : Nat) (f : Nat → Nat → Nat → α) :
    (pixels h w k f).map g = pixels h w k (fun y x c => g (f y x c)) := by
  unfold pixels
  rw [grid_map]
  simp only [List.map_map]
  rfl

-- A buffer of that size is what it holds at each offset.
theorem pixels_getD (buffer : List α) (default : α) (sized : buffer.length = h*w*k) :
    pixels h w k (fun y x c => buffer.getD ((y*w+x)*k+c) default) = buffer := by
  have mapped : pixels h w k (fun y x c => buffer.getD ((y*w+x)*k+c) default) =
      (List.range (h*w*k)).map (fun i => buffer.getD i default) := by
    rw [←grid_range,grid_map]
    simp only [pixels,List.map_map]
    rfl
  rw [mapped,←sized]
  apply List.ext_getElem
  · simp
  · intro i _ inside
    simp [inside]

end Pixels

end RowMajor
