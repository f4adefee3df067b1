import SmartFill.Lib.Parallel

-- std::call_once: threads that share a flag and the object it guards.
namespace Once
open Transition Parallel

inductive Flag where
  | fresh
  | busy
  | ready
  deriving DecidableEq

-- A thread keeps what it came with until it leaves.
inductive Phase (L : Type) where
  | away
  | waiting (l : L)
  | inside (l : L)
  | past (l : L)

inductive Act (L A W : Type) where
  | enter (l : L)
  | start
  | finish (a : A)
  | pass
  | work (w : W)

-- What is to run once, which may throw, and what a thread does behind it.
structure Body (L S A W : Type) where
  once : A → S → S × Bool
  work : L → S → W → Option (Option L × S)

variable {ι L S A W : Type}

def resume : Option L → Phase L
  | none => .away
  | some l => .past l

-- The others wait while one is inside; after a throw the next one tries.
def step (b : Body L S A W) : Phase L → Flag × S → Act L A W → Option (Phase L × Flag × S)
  | .away,store,.enter l => some (.waiting l,store)
  | .waiting l,(.fresh,s),.start => some (.inside l,.busy,s)
  | .waiting l,(.ready,s),.pass => some (.past l,.ready,s)
  | .inside l,(_,s),.finish a =>
    match b.once a s with
    | (s,true) => some (.away,.fresh,s)
    | (s,false) => some (.past l,.ready,s)
  | .past l,(flag,s),.work w => (b.work l s w).map (fun moved => (resume moved.1,flag,moved.2))
  | _,_,_ => none

def component (b : Body L S A W) : Component (Phase L) (Flag × S) (Act L A W) where
  initial l := l = .away
  step := step b

inductive Stepped (b : Body L S A W) : Phase L → Flag × S → Act L A W → Phase L × Flag × S → Prop where
  | enter : Stepped b .away store (.enter l) (.waiting l,store)
  | start : Stepped b (.waiting l) (.fresh,s) .start (.inside l,.busy,s)
  | pass : Stepped b (.waiting l) (.ready,s) .pass (.past l,.ready,s)
  | threw : b.once a s = (s',true) → Stepped b (.inside l) (flag,s) (.finish a) (.away,.fresh,s')
  | finish : b.once a s = (s',false) → Stepped b (.inside l) (flag,s) (.finish a) (.past l,.ready,s')
  | work : b.work l s w = some (next,s') → Stepped b (.past l) (flag,s) (.work w) (resume next,flag,s')

theorem step_stepped {b : Body L S A W} {l : Phase L} {store : Flag × S} {act : Act L A W} {moved : Phase L × Flag × S}
    (ran : step b l store act = some moved) : Stepped b l store act moved := by
  unfold step at ran
  split at ran
  · cases ran
    exact .enter
  · cases ran
    exact .start
  · cases ran
    exact .pass
  · split at ran
    · rename_i threw
      cases ran
      exact .threw threw
    · rename_i finished
      cases ran
      exact .finish finished
  · obtain ⟨⟨next,s'⟩,worked,rfl⟩ := Option.map_eq_some_iff.mp ran
    exact .work worked
  · cases ran

variable [DecidableEq ι] {b : Body L S A W} {begins : S → Prop}

abbrev Threads (ι L S : Type) := Together (fun _ : ι => Phase L) (Flag × S)

def threads (ι : Type) [DecidableEq ι] (b : Body L S A W) (begins : S → Prop) :
    System (Threads ι L S) (Σ _ : ι, Act L A W) :=
  together (fun store => store.1 = .fresh ∧ begins store.2) (fun _ => component b)

theorem threads_step {s next : Threads ι L S} {act : Σ _ : ι, Act L A W} (ran : (threads ι b begins).step s act = some next) :
    ∃ moved, Stepped b (s.locals act.1) s.store act.2 moved ∧ next = ⟨Function.update s.locals act.1 moved.1,moved.2⟩ := by
  obtain ⟨moved,step,rfl⟩ := together_step ran
  exact ⟨moved,step_stepped step,rfl⟩

structure Ruled (s : Threads ι L S) : Prop where
  alone : ∀ i j l l', s.locals i = .inside l → s.locals j = .inside l' → i = j
  busy : s.store.1 = .busy ↔ ∃ i l, s.locals i = .inside l
  past : ∀ i l, s.locals i = .past l → s.store.1 = .ready

section Rules
variable {locals : ι → Phase L} {flag later : Flag} {o o' : S} {i : ι} {p : Phase L}

theorem update_phase {j : ι} {q : Phase L} (is : Function.update locals i p j = q) :
    (j = i ∧ p = q) ∨ (j ≠ i ∧ locals j = q) := by
  by_cases same : j = i
  · subst same
    exact .inl ⟨rfl,by simpa using is⟩
  · exact .inr ⟨same,by simpa [same] using is⟩

-- A step that neither goes inside nor comes from there.
theorem ruled_apart (ruled : Ruled (⟨locals,flag,o⟩ : Threads ι L S)) (outside : ∀ l, locals i ≠ .inside l)
    (stays : ∀ l, p ≠ .inside l) (passes : ∀ l, p = .past l → flag = .ready) :
    Ruled (⟨Function.update locals i p,flag,o'⟩ : Threads ι L S) := by
  have inside (j : ι) (l : L) : Function.update locals i p j = .inside l ↔ locals j = .inside l := by
    by_cases same : j = i
    · subst same
      simp [stays,outside]
    · simp [same]
  refine ⟨fun j k l l' one other => ?_,?_,fun j l past => ?_⟩
  · exact ruled.alone j k l l' ((inside j l).mp one) ((inside k l').mp other)
  · simpa only [inside] using ruled.busy
  · rcases update_phase past with ⟨_,is⟩ | ⟨_,is⟩
    · exact passes l is
    · exact ruled.past j l is

theorem ruled_start {l : L} (ruled : Ruled (⟨locals,.fresh,o⟩ : Threads ι L S)) :
    Ruled (⟨Function.update locals i (.inside l),.busy,o'⟩ : Threads ι L S) := by
  have empty (j : ι) (k : L) : locals j ≠ .inside k := fun one => nomatch ruled.busy.mpr ⟨j,k,one⟩
  have only {j : ι} {k : L} (one : Function.update locals i (.inside l) j = .inside k) : j = i := by
    rcases update_phase one with ⟨same,_⟩ | ⟨_,is⟩
    · exact same
    · exact absurd is (empty j k)
  refine ⟨fun j k _ _ one other => (only one).trans (only other).symm,?_,fun j k past => ?_⟩
  · exact ⟨fun _ => ⟨i,l,Function.update_self ..⟩,fun _ => rfl⟩
  · rcases update_phase past with ⟨_,is⟩ | ⟨_,is⟩
    · cases is
    · exact nomatch ruled.past j k is

-- The one inside comes out, with whatever the flag is then.
theorem ruled_out {l : L} (ruled : Ruled (⟨locals,flag,o⟩ : Threads ι L S)) (one : locals i = .inside l)
    (outside : ∀ l, p ≠ .inside l) (free : later ≠ .busy) (passes : ∀ l, p = .past l → later = .ready) :
    Ruled (⟨Function.update locals i p,later,o'⟩ : Threads ι L S) := by
  have busy : flag = .busy := ruled.busy.mpr ⟨i,l,one⟩
  have empty (j : ι) (k : L) : Function.update locals i p j ≠ .inside k := by
    intro other
    rcases update_phase other with ⟨_,is⟩ | ⟨apart,is⟩
    · exact outside k is
    · exact apart (ruled.alone j i k l is one)
  refine ⟨fun j _ k _ inside => absurd inside (empty j k),?_,fun j k past => ?_⟩
  · exact ⟨fun is => absurd is free,fun ⟨j,k,inside⟩ => absurd inside (empty j k)⟩
  · rcases update_phase past with ⟨_,is⟩ | ⟨_,is⟩
    · exact passes k is
    · have ready : flag = .ready := ruled.past j k is
      rw [busy] at ready
      cases ready

end Rules

variable {s : Threads ι L S} {permitted : Threads ι L S → (Σ _ : ι, Act L A W) → Prop}

theorem ruled_step {i : ι} {act : Act L A W} {moved : Phase L × Flag × S} (ruled : Ruled s)
    (stepped : Stepped b (s.locals i) s.store act moved) :
    Ruled (⟨Function.update s.locals i moved.1,moved.2⟩ : Threads ι L S) := by
  obtain ⟨locals,flag,o⟩ := s
  simp only at stepped
  generalize was : locals i = l at stepped
  cases stepped with
  | enter => exact ruled_apart ruled (by simp [was]) (by simp) (by simp)
  | start => exact ruled_start ruled
  | pass => exact ruled_apart ruled (by simp [was]) (by simp) (by simp)
  | threw _ => exact ruled_out ruled was (by simp) (by simp) (by simp)
  | finish _ => exact ruled_out ruled was (by simp) (by simp) (by simp)
  | @work _ _ _ next =>
    have ready : flag = .ready := ruled.past i _ was
    exact ruled_apart ruled (by simp [was]) (by cases next <;> simp [resume]) (fun _ _ => ready)

theorem threads_ruled (path : Guarded (threads ι b begins) permitted s) : Ruled s := by
  apply Guarded.keeps Ruled path
  · intro s started
    have away (i : ι) : s.locals i = .away := started.1 i
    exact ⟨by simp [away],by simp [away,started.2.1],by simp [away]⟩
  · intro s act next ruled _ ran
    obtain ⟨moved,stepped,rfl⟩ := threads_step ran
    exact ruled_step ruled stepped

-- The rule for what runs once: it takes what holds of the object at first to
-- what every thread behind it finds and keeps. A throw has to restore the first.
theorem once_rule (before after : S → Prop) (path : Guarded (threads ι b begins) permitted s)
    (first : ∀ o, begins o → before o)
    (once : ∀ s i a o, permitted s ⟨i,.finish a⟩ → before s.store.2 → b.once a s.store.2 = (o,false) → after o)
    (threw : ∀ s i a o, permitted s ⟨i,.finish a⟩ → before s.store.2 → b.once a s.store.2 = (o,true) → before o)
    (works : ∀ s i l w next o, permitted s ⟨i,.work w⟩ → s.locals i = .past l → after s.store.2 →
      b.work l s.store.2 w = some (next,o) → after o) :
    if s.store.1 = .ready then after s.store.2 else before s.store.2 := by
  apply Guarded.invariant Ruled (fun s : Threads ι L S => if s.store.1 = .ready then after s.store.2 else before s.store.2)
    path (fun _ path => threads_ruled path)
  · intro s started
    rw [if_neg (by simp [started.2.1])]
    exact first _ started.2.2
  · intro s ⟨i,act⟩ next ruled known permits ran
    obtain ⟨moved,stepped,rfl⟩ := threads_step ran
    obtain ⟨locals,flag,o⟩ := s
    simp only at stepped known
    generalize was : locals i = l at stepped
    cases stepped with
    | enter => exact known
    | start => exact known
    | pass => exact known
    | threw thrown =>
      have busy : flag = .busy := ruled.busy.mpr ⟨i,_,was⟩
      rw [busy] at known
      exact threw _ i _ _ permits known thrown
    | finish finished =>
      have busy : flag = .busy := ruled.busy.mpr ⟨i,_,was⟩
      rw [busy] at known
      exact once _ i _ _ permits known finished
    | work worked =>
      have ready : flag = .ready := ruled.past i _ was
      rw [ready] at known ⊢
      exact works _ i _ _ _ _ permits was known worked

section Progress
variable {locals : ι → Phase L} {flag : Flag} {o o' : S} {i : ι} {l : L}

theorem move_leads {act : Act L A W} {moved : Phase L × Flag × S} (ran : step b (locals i) (flag,o) act = some moved) :
    Leads (threads ι b begins) ⟨locals,flag,o⟩ ⟨Function.update locals i moved.1,moved.2⟩ :=
  .single ⟨⟨i,act⟩,by simp [threads,together,component,ran]⟩

theorem finish_leads {a : A} (inside : locals i = .inside l) (finished : b.once a o = (o',false)) :
    Leads (threads ι b begins) ⟨locals,flag,o⟩ ⟨Function.update locals i (.past l),.ready,o'⟩ := by
  have ran : step b (locals i) (flag,o) (.finish a) = some (.past l,.ready,o') := by
    simp [inside,step,finished]
  exact move_leads ran

theorem pass_leads (waits : locals i = .waiting l) :
    Leads (threads ι b begins) ⟨locals,.ready,o⟩ ⟨Function.update locals i (.past l),.ready,o⟩ := by
  have ran : step b (locals i) (.ready,o) .pass = some (.past l,.ready,o) := by
    rw [waits]
    rfl
  exact move_leads ran

-- Nobody waits in vain as long as the attempt inside can end without a throw.
theorem leads_past (ruled : Ruled s) (settles : ∀ o, ∃ a o', b.once a o = (o',false))
    (called : s.locals i = .waiting l ∨ s.locals i = .inside l ∨ s.locals i = .past l) :
    ∃ later, Leads (threads ι b begins) s later ∧ later.locals i = .past l := by
  obtain ⟨locals,flag,o⟩ := s
  simp only at called
  rcases called with waits | inside | past
  · cases flag with
    | fresh =>
      obtain ⟨a,o',finished⟩ := settles o
      have ran : step b (locals i) (.fresh,o) .start = some (.inside l,.busy,o) := by
        rw [waits]
        rfl
      exact ⟨_,(move_leads ran).trans (finish_leads (Function.update_self ..) finished),Function.update_self ..⟩
    | busy =>
      obtain ⟨j,k,inside⟩ := ruled.busy.mp rfl
      obtain ⟨a,o',finished⟩ := settles o
      have apart : i ≠ j := by
        intro same
        subst same
        exact nomatch waits.symm.trans inside
      have still : Function.update locals j (.past k) i = .waiting l := (Function.update_of_ne apart ..).trans waits
      exact ⟨_,(finish_leads inside finished).trans (pass_leads still),Function.update_self ..⟩
    | ready => exact ⟨_,pass_leads waits,Function.update_self ..⟩
  · obtain ⟨a,o',finished⟩ := settles o
    exact ⟨_,finish_leads inside finished,Function.update_self ..⟩
  · exact ⟨_,.refl,past⟩

end Progress

end Once
