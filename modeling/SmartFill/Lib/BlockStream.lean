import Mathlib.Data.List.Basic

-- A message read in blocks of one size: the complete ones go through a
-- compression function, what is left over waits for more.
namespace BlockStream
variable {S α : Type} {k : Nat} {f : S → List α → S} {s : S} {block short data more : List α}

def blocks (k : Nat) (data : List α) : List (List α) :=
  (List.range (data.length / k)).map (fun i => (data.drop (i*k)).take k)

def absorb (k : Nat) (f : S → List α → S) (s : S) (data : List α) : S := (blocks k data).foldl f s

def rest (k : Nat) (data : List α) : List α := data.drop (data.length / k * k)

theorem blocks_short (less : short.length < k) : blocks k short = [] := by
  simp [blocks,Nat.div_eq_of_lt less]

theorem rest_short (less : short.length < k) : rest k short = short := by
  simp [rest,Nat.div_eq_of_lt less]

theorem absorb_short (less : short.length < k) : absorb k f s short = s := by
  simp [absorb,blocks_short less]

theorem count_cons (positive : 0 < k) (whole : block.length = k) :
    (block ++ data).length / k = data.length / k + 1 := by
  rw [List.length_append,whole,Nat.add_comm,Nat.add_div_right _ positive]

theorem blocks_cons (positive : 0 < k) (whole : block.length = k) :
    blocks k (block ++ data) = block :: blocks k data := by
  have later : ∀ i, ((block ++ data).drop ((i+1)*k)).take k = (data.drop (i*k)).take k := by
    intro i
    have offset : (i+1)*k = block.length + i*k := by rw [whole,Nat.succ_mul,Nat.add_comm]
    rw [offset,← List.drop_drop,List.drop_left]
  rw [blocks,count_cons positive whole,List.range_succ_eq_map,List.map_cons,List.map_map,blocks]
  simp only [Nat.zero_mul,List.drop_zero,Function.comp_def,later]
  rw [← whole,List.take_left]

theorem absorb_cons (positive : 0 < k) (whole : block.length = k) :
    absorb k f s (block ++ data) = absorb k f (f s block) data := by
  rw [absorb,blocks_cons positive whole,List.foldl_cons,absorb]

theorem rest_cons (positive : 0 < k) (whole : block.length = k) : rest k (block ++ data) = rest k data := by
  have offset : (data.length / k + 1) * k = block.length + data.length / k * k := by
    rw [whole,Nat.succ_mul,Nat.add_comm]
  rw [rest,count_cons positive whole,offset,← List.drop_drop,List.drop_left,rest]

-- Induction over a message: fewer elements than a block, or one more block.
theorem message_induction {motive : List α → Prop} (positive : 0 < k)
    (short : ∀ data, data.length < k → motive data)
    (next : ∀ block data, block.length = k → motive data → motive (block ++ data)) (data : List α) : motive data := by
  induction size : data.length using Nat.strongRecOn generalizing data with
  | ind n ih =>
    by_cases less : data.length < k
    · exact short data less
    · have whole : (data.take k).length = k := by
        rw [List.length_take]
        omega
      rw [← List.take_append_drop k data]
      refine next _ _ whole (ih _ ?_ _ rfl)
      rw [List.length_drop]
      omega

theorem rest_length (data : List α) : (rest k data).length = data.length % k := by
  rw [rest,List.length_drop]
  have parts := Nat.div_add_mod data.length k
  rw [Nat.mul_comm] at parts
  omega

-- Absorbing what was left over together with what follows is absorbing it all.
theorem absorb_append (positive : 0 < k) (s : S) (data more : List α) :
    absorb k f s (data ++ more) = absorb k f (absorb k f s data) (rest k data ++ more) := by
  induction data using message_induction positive generalizing s with
  | short data less => rw [absorb_short less,rest_short less]
  | next block data whole ih =>
    rw [List.append_assoc,absorb_cons positive whole,absorb_cons positive whole,rest_cons positive whole]
    exact ih (f s block)

theorem rest_append (positive : 0 < k) (data more : List α) : rest k (data ++ more) = rest k (rest k data ++ more) := by
  induction data using message_induction positive with
  | short data less => rw [rest_short less]
  | next block data whole ih =>
    rw [List.append_assoc,rest_cons positive whole,rest_cons positive whole]
    exact ih

-- Two compression functions that agree on whole blocks, through a map of their
-- states, agree on messages.
theorem absorb_map {T : Type} {g : T → List α → T} (view : S → T) (positive : 0 < k)
    (agree : ∀ s block, block.length = k → view (f s block) = g (view s) block) (s : S) (data : List α) :
    view (absorb k f s data) = absorb k g (view s) data := by
  induction data using message_induction positive generalizing s with
  | short data less => rw [absorb_short less,absorb_short less]
  | next block data whole ih =>
    rw [absorb_cons positive whole,absorb_cons positive whole,← agree s block whole]
    exact ih (f s block)

end BlockStream
