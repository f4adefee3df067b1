import Mathlib.Data.List.DropRight

namespace Trailing
variable {α : Type} {p : α → Bool} {s front back : List α}

theorem rdropWhile_trailing (trailing : back.all p = true) :
    (front ++ back).rdropWhile p = front.rdropWhile p := by
  induction back using List.reverseRecOn with
  | nil => simp
  | append_singleton rest x ih =>
    simp only [List.all_append,List.all_cons,List.all_nil,Bool.and_true,Bool.and_eq_true] at trailing
    rw [← List.append_assoc,List.rdropWhile_concat_pos p _ _ trailing.2]
    exact ih trailing.1

theorem rdropWhile_keeps (last : ∀ c, s.getLast? = some c → p c = false) : s.rdropWhile p = s := by
  rw [List.rdropWhile_eq_self_iff]
  intro nonempty dropped
  have kept := last _ (List.getLast?_eq_getLast_of_ne_nil nonempty)
  rw [kept] at dropped
  cases dropped

theorem rdropWhile_last (s : List α) {c : α} (last : (s.rdropWhile p).getLast? = some c) : p c = false := by
  have nonempty : s.rdropWhile p ≠ [] := by
    intro empty
    simp [empty] at last
  rw [List.getLast?_eq_getLast_of_ne_nil nonempty,Option.some.injEq] at last
  rw [← last]
  simpa using List.rdropWhile_last_not p s nonempty

theorem rdropWhile_split (p : α → Bool) (s : List α) :
    ∃ back, s = s.rdropWhile p ++ back ∧ back.all p = true := by
  refine ⟨s.rtakeWhile p,List.rdropWhile_append_rtakeWhile.symm,?_⟩
  apply List.all_eq_true.mpr
  intro x member
  exact List.mem_rtakeWhile_imp member

theorem rdropWhile_map {β : Type} (q : β → Bool) (f : α → β) (s : List α) :
    (s.map f).rdropWhile q = (s.rdropWhile (fun x => q (f x))).map f := by
  induction s using List.reverseRecOn with
  | nil => rfl
  | append_singleton rest x ih =>
    rw [List.map_append,List.map_singleton,List.rdropWhile_concat,List.rdropWhile_concat]
    split
    · exact ih
    · simp

-- Everything that satisfies p is taken off the end, but never the first.
def trimTail (p : α → Bool) : List α → List α
  | [] => []
  | c :: rest => c :: rest.rdropWhile p

theorem trimTail_map {β : Type} (q : β → Bool) (f : α → β) (s : List α) :
    trimTail q (s.map f) = (trimTail (fun x => q (f x)) s).map f := by
  cases s with
  | nil => rfl
  | cons c rest => simp [trimTail,rdropWhile_map]

theorem trimTail_last (s : List α) {c : α} (last : (trimTail p s).getLast? = some c) (holds : p c = true) :
    trimTail p s = [c] := by
  cases s with
  | nil => simp [trimTail] at last
  | cons first rest =>
    simp only [trimTail] at last ⊢
    cases kept : rest.rdropWhile p using List.reverseRecOn with
    | nil => simpa [kept] using last
    | append_singleton front x =>
      have same : x = c := by simpa [kept,List.getLast?_cons] using last
      have dropped : p x = false := rdropWhile_last rest (by simp [kept])
      rw [same,holds] at dropped
      cases dropped

theorem trimTail_keeps (last : ∀ c, s.getLast? = some c → p c = true → s = [c]) : trimTail p s = s := by
  cases s with
  | nil => rfl
  | cons first rest =>
    simp only [trimTail,List.cons.injEq,true_and]
    apply rdropWhile_keeps
    intro c isLast
    by_contra holds
    have short := last c (by simp [List.getLast?_cons,isLast]) (by simpa using holds)
    simp only [List.cons.injEq] at short
    simp [short.2] at isLast

section TwoPasses
variable {q : α → Bool}

-- An element of the first kind that only the second kind, then only the first,
-- follow: taking the first kind off the end and then the second leaves it last.
def Hides (p q : α → Bool) (s : List α) : Prop :=
  ∃ front b seps blanks, s = front ++ b :: (seps ++ blanks) ∧ p b = true ∧ seps ≠ [] ∧
    seps.all q = true ∧ blanks.all p = true

theorem hides_last (apart : ∀ c, q c = true → p c = false) (hides : Hides p q s) :
    ∃ b, (trimTail q (s.rdropWhile p)).getLast? = some b ∧ p b = true := by
  obtain ⟨front,b,seps,blanks,rfl,blank,nonempty,separators,trailing⟩ := hides
  refine ⟨b,?_,blank⟩
  have first : (front ++ b :: (seps ++ blanks)).rdropWhile p = front ++ b :: seps := by
    rw [← List.cons_append,← List.append_assoc,rdropWhile_trailing trailing]
    apply rdropWhile_keeps
    intro c last
    rw [List.getLast?_append_of_ne_nil _ (List.cons_ne_nil b seps),List.getLast?_cons_of_ne_nil nonempty] at last
    exact apart c (List.all_eq_true.mp separators c (List.mem_of_getLast? last))
  have opened : q b = false := by
    by_contra holds
    have := apart b (by simpa using holds)
    simp [blank] at this
  rw [first]
  cases front with
  | nil =>
    have gone : seps.rdropWhile q = [] := List.rdropWhile_eq_nil_iff.mpr (List.all_eq_true.mp separators)
    simp [trimTail,gone]
  | cons c rest =>
    have kept : (rest ++ b :: seps).rdropWhile q = rest ++ [b] := by
      rw [List.append_cons,rdropWhile_trailing separators]
      exact List.rdropWhile_concat_neg q _ _ (by simp [opened])
    simp [trimTail,kept,List.getLast?_cons]

theorem last_hides (last : (trimTail q (s.rdropWhile p)).getLast? = some b) (blank : p b = true) : Hides p q s := by
  obtain ⟨blanks,whole,trailing⟩ := rdropWhile_split p s
  have ends := fun c => @rdropWhile_last _ p s c
  revert last ends whole
  cases s.rdropWhile p with
  | nil => simp [trimTail]
  | cons c rest =>
    intro last whole ends
    obtain ⟨seps,split,separators⟩ := rdropWhile_split q rest
    obtain ⟨front,shown⟩ := List.getLast?_eq_some_iff.mp last
    simp only [trimTail] at shown
    have parts : c :: rest = front ++ b :: seps := by
      rw [split,← List.cons_append,shown]
      simp
    refine ⟨front,b,seps,blanks,?_,blank,?_,separators,trailing⟩
    · rw [whole,parts]
      simp
    · rintro rfl
      have := ends b (by simp [parts])
      simp [blank] at this

theorem hides_iff (apart : ∀ c, q c = true → p c = false) :
    Hides p q s ↔ ∃ b, (trimTail q (s.rdropWhile p)).getLast? = some b ∧ p b = true :=
  ⟨hides_last apart,fun ⟨_,last,blank⟩ => last_hides last blank⟩

end TwoPasses

end Trailing
