import Mathlib.Data.List.AList
import Mathlib.Data.List.Nodup
import Mathlib.Data.List.Sort

namespace Sweep

section Loops
variable {α σ ε : Type} {advance : Nat → Option ε} {i : Nat} {xs : List α} {s : σ} {n : Int}

-- A loop over an iterator: a round can end it by a fault, and so can the step
-- to the next element, which is taken after the last element too.
def sweep (advance : Nat → Option ε) (body : α → σ → σ × Option ε) : Nat → List α → σ → σ × Option ε
  | _,[],s => (s,none)
  | i,x :: rest,s =>
    match body x s with
    | (s,some fault) => (s,some fault)
    | (s,none) =>
      match advance i with
      | some fault => (s,some fault)
      | none => sweep advance body (i+1) rest s

-- What every round keeps holds at the end, normal or not.
theorem sweep_keeps {body : α → σ → σ × Option ε} (P : σ → Prop) (keeps : ∀ x ∈ xs, ∀ s, P s → P (body x s).1)
    (start : P s) : P (sweep advance body i xs s).1 := by
  induction xs generalizing i s with
  | nil => exact start
  | cons x rest ih =>
    have round := keeps x List.mem_cons_self s start
    have later := fun y member => keeps y (List.mem_cons_of_mem x member)
    unfold sweep
    split
    · rename_i ended
      rw [ended] at round
      exact round
    · rename_i ended
      rw [ended] at round
      split
      · exact round
      · exact ih later round

-- What holds of a loop that ended normally, once its end and its final state
-- are known.
theorem outcome {run : σ × Option ε} {ready : Prop} {final : σ} (ended : run.2 = none ↔ ready)
    (state : run.2 = none → run.1 = final) (Q : σ → Prop) : (run.2 = none ∧ Q run.1) ↔ ready ∧ Q final := by
  rw [← ended]
  apply and_congr_right
  intro finished
  rw [state finished]

def Advances (advance : Nat → Option ε) (i count : Nat) : Prop := ∀ j < count, advance (i+j) = none

theorem advances_cons : Advances advance i (xs.length+1) ↔ advance i = none ∧ Advances advance (i+1) xs.length := by
  constructor
  · intro steps
    refine ⟨steps 0 (by omega),fun j below => ?_⟩
    rw [Nat.add_right_comm]
    exact steps (j+1) (by omega)
  · rintro ⟨first,later⟩ j below
    cases j with
    | zero => exact first
    | succ j =>
      rw [← Nat.add_assoc,Nat.add_right_comm]
      exact later j (by omega)

-- Rounds that pick some elements and count them, up to a limit.
def counting (picks : α → Bool) (take skip : σ → α → σ) (limit : Int) (fault : ε) (x : α) (s : σ × Int) :
    (σ × Int) × Option ε :=
  if picks x then ((take s.1 x,s.2+1),if s.2+1 ≤ limit then none else some fault) else ((skip s.1 x,s.2),none)

def picked (picks : α → Bool) (take skip : σ → α → σ) (s : σ) (x : α) : σ := if picks x then take s x else skip s x

variable {picks : α → Bool} {take skip : σ → α → σ} {limit : Int} {fault : ε}

theorem picked_always : picked (fun _ => true) take skip = take := rfl

theorem counting_ended (start : n ≤ limit) :
    (sweep advance (counting picks take skip limit fault) i xs (s,n)).2 = none ↔
      Advances advance i xs.length ∧ n + (xs.filter picks).length ≤ limit := by
  induction xs generalizing i s n with
  | nil => simpa [sweep,Advances] using start
  | cons x rest ih =>
    rw [List.length_cons,advances_cons,sweep,counting]
    by_cases pick : picks x = true
    · by_cases room : n+1 ≤ limit
      · cases step : advance i with
        | some fault => simp [pick,room]
        | none =>
          simp only [if_pos pick,if_pos room,ih room,List.filter_cons_of_pos pick,List.length_cons,true_and]
          apply and_congr_right'
          omega
      · simp only [if_pos pick,if_neg room,List.filter_cons_of_pos pick,List.length_cons,reduceCtorEq,false_iff]
        omega
    · cases step : advance i with
      | some fault => simp [pick]
      | none => simp only [if_neg pick,ih start,List.filter_cons_of_neg pick,true_and]

theorem counting_state (ended : (sweep advance (counting picks take skip limit fault) i xs (s,n)).2 = none) :
    (sweep advance (counting picks take skip limit fault) i xs (s,n)).1 =
      (xs.foldl (picked picks take skip) s,n + (xs.filter picks).length) := by
  induction xs generalizing i s n with
  | nil => simp [sweep]
  | cons x rest ih =>
    rw [sweep,counting] at ended ⊢
    by_cases pick : picks x = true
    · by_cases room : n+1 ≤ limit
      · cases step : advance i with
        | some fault => simp [pick,room,step] at ended
        | none =>
          simp only [if_pos pick,if_pos room,step] at ended ⊢
          rw [ih ended,List.filter_cons_of_pos pick,List.foldl_cons,picked,if_pos pick,List.length_cons]
          congr 1
          push_cast
          omega
      · simp [pick,room] at ended
    · cases step : advance i with
      | some fault => simp [pick,step] at ended
      | none =>
        simp only [if_neg pick,step] at ended ⊢
        rw [ih ended,List.filter_cons_of_neg pick,List.foldl_cons,picked,if_neg pick]

theorem counting_outcome (start : n ≤ limit) (Q : σ × Int → Prop) :
    ((sweep advance (counting picks take skip limit fault) i xs (s,n)).2 = none ∧
      Q (sweep advance (counting picks take skip limit fault) i xs (s,n)).1) ↔
    Advances advance i xs.length ∧ n + (xs.filter picks).length ≤ limit ∧
      Q (xs.foldl (picked picks take skip) s,n + (xs.filter picks).length) := by
  rw [← and_assoc]
  exact outcome (counting_ended start) counting_state Q

-- Rounds that cannot fail by themselves.
def plain (f : σ → α → σ) (x : α) (s : σ) : σ × Option ε := (f s x,none)

theorem plain_ended (f : σ → α → σ) : (sweep advance (plain f) i xs s).2 = none ↔ Advances advance i xs.length := by
  induction xs generalizing i s with
  | nil => simp [sweep,Advances]
  | cons x rest ih =>
    rw [List.length_cons,advances_cons,sweep,plain]
    cases step : advance i with
    | some fault => simp
    | none => simp [ih]

theorem plain_state (f : σ → α → σ) (ended : (sweep advance (plain f) i xs s).2 = none) :
    (sweep advance (plain f) i xs s).1 = xs.foldl f s := by
  induction xs generalizing i s with
  | nil => rfl
  | cons x rest ih =>
    rw [sweep,plain] at ended ⊢
    cases step : advance i with
    | some fault => simp [step] at ended
    | none =>
      simp only [step] at ended ⊢
      exact ih ended

theorem plain_outcome (f : σ → α → σ) (Q : σ → Prop) :
    ((sweep advance (plain f) i xs s).2 = none ∧ Q (sweep advance (plain f) i xs s).1) ↔
    Advances advance i xs.length ∧ Q (xs.foldl f s) := outcome (plain_ended f) (plain_state f) Q

end Loops

section Erasing
variable {N β : Type} [DecidableEq N] {store before after : AList (fun _ : N => β)} {names : List N} {n : N}

-- Removal of one name after another; some of them are refused.
def eraseEach (refuses : N → Bool) (names : List N) (store : AList (fun _ : N => β)) : AList (fun _ : N => β) :=
  names.foldl (fun s n => if refuses n then s else s.erase n) store

theorem eraseEach_append (refuses : N → Bool) (names names' : List N) :
    eraseEach refuses (names ++ names') store = eraseEach refuses names' (eraseEach refuses names store) :=
  List.foldl_append

theorem lookup_eraseEach (refuses : N → Bool) : (eraseEach refuses names store).lookup n =
    if n ∈ names ∧ refuses n = false then none else store.lookup n := by
  induction names generalizing store with
  | nil => simp [eraseEach]
  | cons m rest ih =>
    rw [eraseEach,List.foldl_cons,← eraseEach,ih]
    by_cases same : n = m
    · subst same
      cases refused : refuses n <;> simp
    · cases refused : refuses m <;> simp [same,AList.lookup_erase_ne]

theorem mem_eraseEach (refuses : N → Bool) :
    n ∈ eraseEach refuses names store ↔ n ∈ store ∧ ¬ (n ∈ names ∧ refuses n = false) := by
  rw [← AList.lookup_isSome,lookup_eraseEach,← AList.lookup_isSome]
  split <;> simp_all

omit [DecidableEq N] in
theorem same_length {left right : List N} (distinct : left.Nodup) (distinct' : right.Nodup)
    (members : ∀ n, n ∈ left ↔ n ∈ right) : left.length = right.length :=
  ((List.perm_ext_iff_of_nodup distinct distinct').mpr members).length_eq

def gone (p : N → Bool) (before after : AList (fun _ : N => β)) : List N :=
  before.keys.filter (fun n => p n && decide (n ∉ after.keys))

theorem mem_gone {p : N → Bool} : n ∈ gone p before after ↔ n ∈ before ∧ p n = true ∧ n ∉ after := by
  simp [gone,AList.mem_keys]

theorem gone_nodup (p : N → Bool) : (gone p before after).Nodup := before.keys_nodup.filter _

end Erasing

section Newest
variable {α : Type} {key : α → Int} {xs : List α} {x y : α}

-- A sort by descending key leaves the order of equal keys open.
structure Sorter (α : Type) (key : α → Int) where
  sort : List α → List α
  perm : ∀ xs, (sort xs).Perm xs
  descending : ∀ xs, (sort xs).Pairwise (fun x y => key y ≤ key x)

theorem Sorter.dropped_le (sorter : Sorter α key) (limit : Nat) (dropped : x ∈ (sorter.sort xs).drop limit)
    (kept : y ∈ (sorter.sort xs).take limit) : key x ≤ key y := by
  have sorted := sorter.descending xs
  rw [← List.take_append_drop limit (sorter.sort xs)] at sorted
  exact (List.pairwise_append.mp sorted).2.2 y kept x dropped

def insertionSorter (key : α → Int) : Sorter α key where
  sort xs := xs.insertionSort (fun x y => key y ≤ key x)
  perm xs := List.perm_insertionSort _ xs
  descending xs := by
    have total : Std.Total (fun x y : α => key y ≤ key x) := ⟨fun x y => Int.le_total _ _⟩
    have trans : IsTrans α (fun x y : α => key y ≤ key x) := ⟨fun x y z first second => Int.le_trans second first⟩
    exact List.pairwise_insertionSort _ xs

end Newest

end Sweep
