import Mathlib.Data.List.Nodup

-- Values under names, in the order they came.
namespace NamedList
variable {K V : Type} {k k' : K} {v v' : V} {l : List (K × V)}

def names (l : List (K × V)) : List K := l.map Prod.fst

theorem names_added : names (l ++ [(k,v)]) = names l ++ [k] := List.map_append

theorem nodup_added (distinct : (names l).Nodup) (absent : k ∉ names l) : (names (l ++ [(k,v)])).Nodup := by
  rw [names_added,List.nodup_append]
  refine ⟨distinct,List.nodup_singleton _,?_⟩
  rintro a listed b single rfl
  rw [show a = k from List.mem_singleton.mp single] at listed
  exact absent listed

@[simp] theorem mem_names_added : k' ∈ names (l ++ [(k,v)]) ↔ k' = k ∨ k' ∈ names l := by simp [names_added,or_comm]

-- The rest of a list, when only some names are worked on.
def rest (keep : K → Bool) (l : List (K × V)) : List (K × V) := l.filter (fun e => keep e.1)

theorem rest_added {keep : K → Bool} (out : keep k = false) : rest keep (l ++ [(k,v)]) = rest keep l := by
  simp [rest,out]

variable [DecidableEq K]

def store (k : K) (v : V) (l : List (K × V)) : List (K × V) := l.map (fun e => if e.1 = k then (k,v) else e)

def drop (k : K) (l : List (K × V)) : List (K × V) := l.filter (fun e => decide (e.1 ≠ k))

def provide (k : K) (v : V) (l : List (K × V)) : List (K × V) := if k ∈ names l then l else l ++ [(k,v)]

theorem store_cons (e : K × V) (l : List (K × V)) :
    store k v (e :: l) = (if e.1 = k then (k,v) else e) :: store k v l := rfl

theorem drop_cons (e : K × V) (l : List (K × V)) : drop k (e :: l) = if e.1 = k then drop k l else e :: drop k l := by
  by_cases same : e.1 = k <;> simp [drop,same]

@[simp] theorem names_store : names (store k v l) = names l := by
  induction l with
  | nil => rfl
  | cons e rest ih =>
    simp only [names,store,List.map_cons,List.map_map] at ih ⊢
    refine congrArg₂ _ ?_ ih
    split
    · rename_i same
      exact same.symm
    · rfl

@[simp] theorem mem_names_drop : k' ∈ names (drop k l) ↔ k' ≠ k ∧ k' ∈ names l := by
  simp only [names,drop,List.mem_map,List.mem_filter,decide_eq_true_eq]
  constructor
  · rintro ⟨e,⟨listed,other⟩,rfl⟩
    exact ⟨other,e,listed,rfl⟩
  · rintro ⟨other,e,listed,rfl⟩
    exact ⟨e,⟨listed,other⟩,rfl⟩

@[simp] theorem mem_names_provide : k' ∈ names (provide k v l) ↔ k' = k ∨ k' ∈ names l := by
  unfold provide
  split
  · rename_i there
    exact ⟨.inr,fun either => either.elim (fun same => same ▸ there) id⟩
  · simp [names,or_comm]

theorem provide_there (there : k ∈ names l) : provide k v l = l := if_pos there

theorem names_provide : names (provide k v l) = if k ∈ names l then names l else names l ++ [k] := by
  unfold provide
  split
  · rfl
  · exact names_added

theorem store_added (other : k' ≠ k) : store k v (l ++ [(k',v')]) = store k v l ++ [(k',v')] := by
  simp [store,other]

theorem store_provide (other : k' ≠ k) : store k v (provide k' v' l) = provide k' v' (store k v l) := by
  unfold provide
  rw [names_store]
  split
  · rfl
  · exact store_added other

theorem drop_added : drop k (l ++ [(k,v)]) = drop k l := by simp [drop]

theorem store_store : store k v (store k v' l) = store k v l := by
  simp only [store,List.map_map]
  refine List.map_congr_left (fun e _ => ?_)
  by_cases same : e.1 = k <;> simp [same]

theorem store_comm (other : k ≠ k') : store k v (store k' v' l) = store k' v' (store k v l) := by
  simp only [store,List.map_map]
  refine List.map_congr_left (fun e _ => ?_)
  by_cases one : e.1 = k
  · simp [one,other]
  · by_cases two : e.1 = k' <;> simp [one,two,Ne.symm other]

theorem drop_store (other : k ≠ k') : drop k (store k' v l) = store k' v (drop k l) := by
  induction l with
  | nil => rfl
  | cons e rest ih =>
    by_cases named : e.1 = k'
    · have kept : e.1 ≠ k := fun same => other (same.symm.trans named)
      simp only [store_cons,drop_cons,if_pos named,if_neg kept,if_neg (Ne.symm other),ih]
    · by_cases dropped : e.1 = k
      · simp only [store_cons,drop_cons,if_neg named,if_pos dropped,ih]
      · simp only [store_cons,drop_cons,if_neg named,if_neg dropped,ih]

theorem drop_drop : drop k (drop k l) = drop k l := by simp [drop,List.filter_filter]

theorem nodup_drop (distinct : (names l).Nodup) : (names (drop k l)).Nodup :=
  distinct.sublist (List.filter_sublist.map _)

theorem nodup_provide (distinct : (names l).Nodup) : (names (provide k v l)).Nodup := by
  unfold provide
  split
  · exact distinct
  · rename_i absent
    exact nodup_added distinct absent

theorem lookup_other {e : K × V} (other : k ≠ e.1) : (e :: l).lookup k = l.lookup k := by
  rw [List.lookup_cons,beq_eq_false_iff_ne.mpr other]

theorem lookup_absent (absent : k ∉ names l) : l.lookup k = none := by
  induction l with
  | nil => rfl
  | cons e rest ih =>
    simp only [names,List.map_cons,List.mem_cons,not_or] at absent
    rw [lookup_other absent.1]
    exact ih absent.2

theorem lookup_store_self (there : k ∈ names l) : (store k v l).lookup k = some v := by
  induction l with
  | nil => cases there
  | cons e rest ih =>
    rw [store_cons]
    by_cases same : e.1 = k
    · simp [same]
    · rw [if_neg same,lookup_other (Ne.symm same)]
      exact ih ((List.mem_cons.mp there).resolve_left (Ne.symm same))

theorem lookup_store_other (other : k' ≠ k) : (store k v l).lookup k' = l.lookup k' := by
  induction l with
  | nil => rfl
  | cons e rest ih =>
    rw [store_cons]
    by_cases same : e.1 = k
    · rw [if_pos same,lookup_other other,lookup_other (same ▸ other),ih]
    · rw [if_neg same,List.lookup_cons,List.lookup_cons,ih]

theorem lookup_drop_other (other : k' ≠ k) : (drop k l).lookup k' = l.lookup k' := by
  induction l with
  | nil => rfl
  | cons e rest ih =>
    rw [drop_cons]
    by_cases same : e.1 = k
    · rw [if_pos same,lookup_other (same ▸ other),ih]
    · rw [if_neg same,List.lookup_cons,List.lookup_cons,ih]

theorem lookup_append_other (other : k' ≠ k) : (l ++ [(k,v)]).lookup k' = l.lookup k' := by
  induction l with
  | nil => simp [List.lookup_cons,beq_eq_false_iff_ne.mpr other]
  | cons e rest ih => rw [List.cons_append,List.lookup_cons,List.lookup_cons,ih]

theorem lookup_append_self (absent : k ∉ names l) : (l ++ [(k,v)]).lookup k = some v := by
  induction l with
  | nil => simp
  | cons e rest ih =>
    simp only [names,List.map_cons,List.mem_cons,not_or] at absent
    rw [List.cons_append,lookup_other absent.1]
    exact ih absent.2

theorem lookup_provide_other (other : k' ≠ k) : (provide k v l).lookup k' = l.lookup k' := by
  unfold provide
  split
  · rfl
  · exact lookup_append_other other

section Rest
variable {keep : K → Bool}

theorem rest_provide (out : keep k = false) : rest keep (provide k v l) = rest keep l := by
  unfold provide
  split
  · rfl
  · exact rest_added out

theorem rest_store (out : keep k = false) : rest keep (store k v l) = rest keep l := by
  induction l with
  | nil => rfl
  | cons e rest ih =>
    simp only [NamedList.rest] at ih ⊢
    rw [store_cons,List.filter_cons,List.filter_cons,ih]
    by_cases same : e.1 = k
    · simp [same,out]
    · rw [if_neg same]

theorem rest_drop (out : keep k = false) : rest keep (drop k l) = rest keep l := by
  induction l with
  | nil => rfl
  | cons e rest ih =>
    simp only [NamedList.rest] at ih ⊢
    rw [drop_cons,List.filter_cons]
    by_cases same : e.1 = k
    · rw [if_pos same,same,out]
      exact ih
    · rw [if_neg same,List.filter_cons,ih]

end Rest

end NamedList
