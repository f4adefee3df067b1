import Mathlib.Data.List.Infix
import Mathlib.Data.List.Nodup
import Mathlib.Data.List.Pairwise

-- Words cut at a separator, and words handled by the prefix they begin with.
namespace PrefixRules
variable {α β : Type} [DecidableEq α] {p q s t k : List α}

def Apart (p q : List α) : Prop := ¬ p <+: q ∧ ¬ q <+: p

instance : DecidableRel (Apart (α := α)) := fun p q => inferInstanceAs (Decidable (¬ p <+: q ∧ ¬ q <+: p))

def PrefixFree (ps : List (List α)) : Prop := ps.Pairwise Apart

instance (ps : List (List α)) : Decidable (PrefixFree ps) := inferInstanceAs (Decidable (ps.Pairwise Apart))

omit [DecidableEq α] in
theorem Apart.append_ne (apart : Apart p q) : p ++ s ≠ q ++ t := by
  intro same
  have left : p <+: p ++ s := List.prefix_append p s
  have right : q <+: p ++ s := same ▸ List.prefix_append q t
  rcases List.prefix_or_prefix_of_prefix left right with before | before
  · exact apart.1 before
  · exact apart.2 before

omit [DecidableEq α] in
theorem PrefixFree.nodup {ps : List (List α)} (free : PrefixFree ps) : ps.Nodup := by
  apply List.Pairwise.imp _ free
  rintro p _ apart rfl
  exact apart.1 List.prefix_rfl

instance : Std.Symm (Apart (α := α)) := ⟨fun _ _ apart => ⟨apart.2,apart.1⟩⟩

omit [DecidableEq α] in
theorem PrefixFree.split_unique {ps : List (List α)} (free : PrefixFree ps) (left : p ∈ ps) (right : q ∈ ps)
    (same : p ++ s = q ++ t) : p = q ∧ s = t := by
  have equal : p = q := by
    by_contra other
    exact (List.Pairwise.forall free left right other).append_ne same
  subst equal
  exact ⟨rfl,List.append_cancel_left same⟩

section Dispatch
variable {rules : List (List α × (List α → β))} {default : β} {handler : List α → β}

-- The first rule whose prefix the word has gets the rest of it.
def dispatch (rules : List (List α × (List α → β))) (default : β) (k : List α) : β :=
  match rules.find? (fun rule => rule.1.isPrefixOf k) with
  | none => default
  | some (p,handler) => handler (k.drop p.length)

theorem dispatch_cases (rules : List (List α × (List α → β))) (default : β) (k : List α) :
    (∃ p handler s, (p,handler) ∈ rules ∧ k = p ++ s ∧ dispatch rules default k = handler s) ∨
      dispatch rules default k = default := by
  unfold dispatch
  cases found : rules.find? (fun rule => rule.1.isPrefixOf k) with
  | none => exact .inr rfl
  | some rule =>
    obtain ⟨p,handler⟩ := rule
    have begins := List.find?_some found
    obtain ⟨s,rfl⟩ := List.isPrefixOf_iff_prefix.mp begins
    exact .inl ⟨p,handler,s,List.mem_of_find?_eq_some found,rfl,by simp⟩

theorem dispatch_rule (free : PrefixFree (rules.map Prod.fst)) (member : (p,handler) ∈ rules) :
    dispatch rules default (p ++ s) = handler s := by
  unfold dispatch
  cases found : rules.find? (fun rule => rule.1.isPrefixOf (p ++ s)) with
  | none =>
    have missed := List.find?_eq_none.mp found (p,handler) member
    exact absurd (List.isPrefixOf_iff_prefix.mpr (List.prefix_append p s)) missed
  | some rule =>
    obtain ⟨q,other⟩ := rule
    have begins := List.find?_some found
    have inRules := List.mem_of_find?_eq_some found
    obtain ⟨t,same⟩ := List.isPrefixOf_iff_prefix.mp begins
    obtain ⟨rfl,rfl⟩ := free.split_unique (List.mem_map_of_mem inRules) (List.mem_map_of_mem member) same
    have one := List.inj_on_of_nodup_map free.nodup inRules member rfl
    cases one
    simp

theorem dispatch_default (apart : ∀ q ∈ rules.map Prod.fst, Apart p q) : dispatch rules default (p ++ s) = default := by
  rcases dispatch_cases rules default (p ++ s) with ⟨q,handler,t,member,same,_⟩ | unruled
  · exact absurd same (apart q (List.mem_map_of_mem member)).append_ne
  · exact unruled

end Dispatch

section Partition

-- The parts before and after the first separator; all of it and nothing when
-- there is none.
def partition (sep : List α) : List α → List α × List α
  | [] => ([],[])
  | c :: rest =>
    if sep.isPrefixOf (c :: rest) then ([],(c :: rest).drop sep.length)
    else (c :: (partition sep rest).1,(partition sep rest).2)

variable {x : α}

theorem partition_cons (c : α) (rest : List α) : partition [x] (c :: rest) =
    if x = c then ([],rest) else (c :: (partition [x] rest).1,(partition [x] rest).2) := by
  simp [partition,List.isPrefixOf]

theorem partition_at (absent : x ∉ s) : partition [x] (s ++ x :: t) = (s,t) := by
  induction s with
  | nil => simp [partition_cons]
  | cons c rest ih =>
    simp only [List.mem_cons,not_or] at absent
    rw [List.cons_append,partition_cons,if_neg absent.1,ih absent.2]

theorem partition_head (s : List α) : x ∉ (partition [x] s).1 := by
  induction s with
  | nil => simp [partition]
  | cons c rest ih =>
    rw [partition_cons]
    split
    · simp
    · rename_i other
      simp [other,ih]

-- Both parts can be told from the word that joins them again.
theorem partition_join_injective (absent : x ∉ s) (absent' : x ∉ s') (same : s ++ x :: t = s' ++ x :: t') :
    s = s' ∧ t = t' := by
  have parts := congrArg (partition [x]) same
  rw [partition_at absent,partition_at absent',Prod.mk.injEq] at parts
  exact parts

end Partition

section Table
variable {κ : Type} [BEq κ] [LawfulBEq κ] {table : List (κ × β)} {a b : κ} {v w : β}

theorem lookup_mem (found : table.lookup a = some v) : (a,v) ∈ table := by
  obtain ⟨before,after,rfl,_⟩ := List.lookup_eq_some_iff.mp found
  simp

theorem lookup_of_mem (distinct : (table.map Prod.fst).Nodup) (row : (a,v) ∈ table) : table.lookup a = some v := by
  cases found : table.lookup a with
  | none =>
    have missing := List.lookup_eq_none_iff.mp found (a,v) row
    simp at missing
  | some w =>
    cases List.inj_on_of_nodup_map distinct (lookup_mem found) row rfl
    rfl

theorem lookup_injective (distinct : (table.map Prod.snd).Nodup) (left : table.lookup a = some v)
    (right : table.lookup b = some v) : a = b :=
  (Prod.ext_iff.mp (List.inj_on_of_nodup_map distinct (lookup_mem left) (lookup_mem right) rfl)).1

end Table

end PrefixRules
