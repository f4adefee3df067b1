import Mathlib.Data.List.Basic
import Mathlib.Tactic.Cases

-- Fixed buffers of characters and the texts in them, which end at a zero. An
-- access outside of a buffer is none.
namespace CBuffer

variable {C : Type} [DecidableEq C] [Zero C]

def write (buf : List C) (i : Nat) (c : C) : Option (List C) := if i < buf.length then some (buf.set i c) else none

-- What a reader takes for the text.
def text : List C → Option (List C)
  | [] => none
  | c :: rest => if c = 0 then some [] else (text rest).map (List.cons c)

-- for (; i < limit && src[i]; ++i) dst[i] = src[i]
-- With the tests the other way round it looks ahead at the limit.
def copy (ahead : Bool) (src : List C) (dst : List C) : (room i : Nat) → Option (List C × Nat)
  | 0,i => if ahead && src[i]?.isNone then none else some (dst,i)
  | room+1,i =>
    match src[i]? with
    | none => none
    | some c => if c = 0 then some (dst,i) else (write dst i c).bind (fun dst => copy ahead src dst room (i+1))

-- for (j = 0; name[j]; ++j, ++i) { if (i >= last) stop; dst[i] = name[j]; }
def append (last : Nat) (dst : List C) (i : Nat) : List C → Option (Option (List C × Nat))
  | [] => some (some (dst,i))
  | c :: rest => if last ≤ i then some none else (write dst i c).bind (fun dst => append last dst (i+1) rest)

variable {s name front tail rest src : List C} {room i last : Nat} {c : C} {ahead : Bool}

theorem text_ends (solid : 0 ∉ s) : text (s ++ 0 :: rest) = some s := by
  induction s with
  | nil => simp [text]
  | cons c s ih =>
    simp only [List.mem_cons,not_or] at solid
    simp [text,Ne.symm solid.1,ih solid.2]

theorem text_isSome : (text s).isSome ↔ 0 ∈ s := by
  induction s with
  | nil => simp [text]
  | cons c s ih =>
    unfold text
    by_cases zero : c = 0
    · simp [zero]
    · simp [zero,Ne.symm zero,ih]

omit [DecidableEq C] [Zero C] in
theorem write_inside (old : C) : write (front ++ old :: tail) front.length c = some (front ++ c :: tail) := by
  rw [write,if_pos (by simp),List.set_append_right _ _ (Nat.le_refl _),Nat.sub_self,List.set_cons_zero]

-- The text that is left to copy is s, and room for it is left in the buffer.
theorem copy_rest (solid : 0 ∉ s) (source : src.drop front.length = s ++ 0 :: rest) (fits : room ≤ tail.length) :
    copy ahead src (front ++ tail) room front.length =
      some (front ++ s.take room ++ tail.drop (s.take room).length,front.length+(s.take room).length) := by
  induction room generalizing s front tail with
  | zero =>
    have more : src[front.length]? ≠ none := by
      rw [← List.head?_drop,source]
      cases s <;> simp
    cases here : src[front.length]? with
    | none => exact absurd here more
    | some c => simp [copy,here]
  | succ room ih =>
    cases s with
    | nil =>
      have here : src[front.length]? = some 0 := by
        rw [← List.head?_drop,source]
        rfl
      simp [copy,here]
    | cons c s =>
      simp only [List.mem_cons,not_or] at solid
      have here : src[front.length]? = some c := by
        rw [← List.head?_drop,source]
        rfl
      cases tail with
      | nil => simp at fits
      | cons old tail =>
        have later : src.drop (front ++ [c]).length = s ++ 0 :: rest := by
          rw [List.length_append,List.length_singleton,← List.tail_drop,source]
          rfl
        have more := @ih s (front ++ [c]) tail solid.2 later (Nat.le_of_succ_le_succ fits)
        simp only [List.length_append,List.length_singleton,List.append_assoc,List.singleton_append] at more
        simp only [copy,here,if_neg (Ne.symm solid.1),write_inside,Option.bind_some,more]
        simp
        omega

theorem copy_text (solid : 0 ∉ s) (fits : room ≤ tail.length) : copy ahead (s ++ 0 :: rest) tail room 0 =
    some (s.take room ++ tail.drop (s.take room).length,(s.take room).length) := by
  have whole := @copy_rest C _ _ s [] tail rest (s ++ 0 :: rest) room ahead solid rfl fits
  simpa using whole

omit [Zero C] in
theorem append_fits (fits : front.length + name.length ≤ last) (room : last ≤ (front ++ tail).length) :
    append last (front ++ tail) front.length name =
      some (some (front ++ name ++ tail.drop name.length,front.length+name.length)) := by
  induction name generalizing front tail with
  | nil => simp [append]
  | cons c rest ih =>
    cases tail with
    | nil =>
      simp at fits room
      omega
    | cons old tail =>
      have more := @ih (front ++ [c]) tail (by simp at fits ⊢; omega) (by simp at room ⊢; omega)
      simp only [List.length_cons] at fits
      simp only [List.length_append,List.length_singleton,List.append_assoc,List.singleton_append] at more
      simp only [append,if_neg (show ¬ last ≤ front.length by omega),write_inside,Option.bind_some,more]
      simp
      omega

end CBuffer
