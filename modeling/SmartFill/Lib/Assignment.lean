import Mathlib.Data.List.Basic

-- States with named fields, and lists of assignments to them.
namespace Assignment
variable {S K V α : Type} {set : S → K → V → S} {key : K} {get : S → α} {decode : V → Option α}

-- Assignments to the key store what the value decodes to, if it does; no
-- other assignment touches the field.
structure Stored (set : S → K → V → S) (key : K) (get : S → α) (decode : V → Option α) : Prop where
  own : ∀ s v, get (set s key v) = (decode v).getD (get s)
  other : ∀ s k v, k ≠ key → get (set s k v) = get s

def assign (set : S → K → V → S) (s : S) (entries : List (K × V)) : S := entries.foldl (fun s e => set s e.1 e.2) s

theorem assign_untouched (stored : Stored set key get decode) (entries : List (K × V))
    (absent : key ∉ entries.map Prod.fst) (s : S) : get (assign set s entries) = get s := by
  induction entries generalizing s with
  | nil => rfl
  | cons e rest ih =>
    simp only [List.map_cons,List.mem_cons,not_or] at absent
    rw [assign,List.foldl_cons]
    exact (ih absent.2 _).trans (stored.other s e.1 e.2 (Ne.symm absent.1))

theorem assign_lookup [DecidableEq K] (stored : Stored set key get decode) (entries : List (K × V))
    (distinct : (entries.map Prod.fst).Nodup) (s : S) :
    get (assign set s entries) = ((entries.lookup key).bind decode).getD (get s) := by
  induction entries generalizing s with
  | nil => rfl
  | cons e rest ih =>
    obtain ⟨name,v⟩ := e
    simp only [List.map_cons,List.nodup_cons] at distinct
    by_cases same : key = name
    · subst same
      have own := stored.own s v
      rw [assign,List.foldl_cons,List.lookup_cons_self]
      exact (assign_untouched stored rest distinct.1 _).trans own
    · have next := ih distinct.2 (set s name v)
      rw [stored.other s name v (Ne.symm same)] at next
      rw [assign,List.foldl_cons,List.lookup_cons,beq_eq_false_iff_ne.mpr same]
      exact next

end Assignment
