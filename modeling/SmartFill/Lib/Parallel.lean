import Mathlib.Logic.Function.Basic
import SmartFill.Lib.Transition

-- Components that share a store, one step at a time.
namespace Parallel
open Transition

structure Component (Local Store Action : Type) where
  initial : Local → Prop
  step : Local → Store → Action → Option (Local × Store)

structure Together {ι : Type} (Local : ι → Type) (Store : Type) where
  locals : ∀ i, Local i
  store : Store

variable {ι Store : Type} [DecidableEq ι] {Local Action : ι → Type}

def together (start : Store → Prop) (components : ∀ i, Component (Local i) Store (Action i)) :
    System (Together Local Store) (Σ i, Action i) where
  initial s := (∀ i, (components i).initial (s.locals i)) ∧ start s.store
  step s act := ((components act.1).step (s.locals act.1) s.store act.2).map
    (fun moved => ⟨Function.update s.locals act.1 moved.1,moved.2⟩)

variable {start : Store → Prop} {components : ∀ i, Component (Local i) Store (Action i)}
  {s next : Together Local Store} {permitted : Together Local Store → (Σ i, Action i) → Prop}

theorem together_step {act : Σ i, Action i} (ran : (together start components).step s act = some next) :
    ∃ moved, (components act.1).step (s.locals act.1) s.store act.2 = some moved ∧
      next = ⟨Function.update s.locals act.1 moved.1,moved.2⟩ := by
  obtain ⟨moved,step,rfl⟩ := Option.map_eq_some_iff.mp ran
  exact ⟨moved,step,rfl⟩

theorem together_act {i : ι} {a : Action i} {moved : Local i × Store}
    (path : Guarded (together start components) permitted s) (permits : permitted s ⟨i,a⟩)
    (ran : (components i).step (s.locals i) s.store a = some moved) :
    Guarded (together start components) permitted ⟨Function.update s.locals i moved.1,moved.2⟩ := by
  apply path.act ⟨i,a⟩ permits
  simp only [together,ran,Option.map_some]

-- A step is a component's own, or leaves the component as it is.
theorem together_local (i : ι) {act : Σ i, Action i} (ran : (together start components).step s act = some next) :
    (∃ a moved, act = ⟨i,a⟩ ∧ (components i).step (s.locals i) s.store a = some moved ∧ next.locals i = moved.1 ∧
      next.store = moved.2) ∨ next.locals i = s.locals i := by
  obtain ⟨j,a⟩ := act
  obtain ⟨moved,step,rfl⟩ := together_step ran
  by_cases own : j = i
  · subst own
    exact .inl ⟨a,moved,rfl,step,Function.update_self ..,rfl⟩
  · exact .inr (Function.update_of_ne (Ne.symm own) ..)

-- Rely and guarantee for one component: what its own steps keep and the steps
-- of the others do not disturb holds of it in every interleaving.
theorem together_keeps (i : ι) (holds : Local i → Store → Prop) (path : Guarded (together start components) permitted s)
    (begins : ∀ l store, (components i).initial l → start store → holds l store)
    (own : ∀ s a moved, Guarded (together start components) permitted s → holds (s.locals i) s.store →
      permitted s ⟨i,a⟩ → (components i).step (s.locals i) s.store a = some moved → holds moved.1 moved.2)
    (others : ∀ s j a moved, j ≠ i → holds (s.locals i) s.store → permitted s ⟨j,a⟩ →
      (components j).step (s.locals j) s.store a = some moved → holds (s.locals i) moved.2) :
    holds (s.locals i) s.store := by
  apply Guarded.invariant (Guarded (together start components) permitted) (fun s => holds (s.locals i) s.store) path
    (fun _ path => path)
  · intro s started
    exact begins _ _ (started.1 i) started.2
  · intro s ⟨j,a⟩ next known before permits ran
    obtain ⟨moved,step,rfl⟩ := together_step ran
    by_cases same : j = i
    · subst same
      simpa using own s a moved known before permits step
    · have kept := others s j a moved same before permits step
      rwa [←Function.update_of_ne (Ne.symm same) moved.1 s.locals] at kept

def place (s : Together Local Store) (i : ι) (l : Local i) (store : Store) : Together Local Store :=
  ⟨Function.update s.locals i l,store⟩

theorem place_self (s : Together Local Store) (i : ι) : place s i (s.locals i) s.store = s := by
  rw [place,Function.update_eq_self]

theorem place_local (s : Together Local Store) (i : ι) (l : Local i) (store : Store) : (place s i l store).locals i = l :=
  Function.update_self ..

theorem place_other (s : Together Local Store) {i j : ι} (l : Local i) (store : Store) (other : j ≠ i) :
    (place s i l store).locals j = s.locals j := Function.update_of_ne other ..

-- A component's own steps are steps of the composition.
theorem place_act {i : ι} {l : Local i} {store : Store} {moved : Local i × Store}
    (path : Guarded (together start components) permitted (place s i l store)) (a : Action i)
    (permits : permitted (place s i l store) ⟨i,a⟩) (ran : (components i).step l store a = some moved) :
    Guarded (together start components) permitted (place s i moved.1 moved.2) := by
  apply path.act ⟨i,a⟩ permits
  simp only [together,place_local]
  rw [show (place s i l store).store = store from rfl,ran,Option.map_some,place,place,Function.update_idem]

-- What every component's step keeps of the store.
theorem together_store (holds : Store → Prop) (path : Guarded (together start components) permitted s)
    (begins : ∀ store, start store → holds store)
    (steps : ∀ s i a moved, Guarded (together start components) permitted s → holds s.store → permitted s ⟨i,a⟩ →
      (components i).step (s.locals i) s.store a = some moved → holds moved.2) : holds s.store := by
  apply Guarded.invariant (Guarded (together start components) permitted) (fun s => holds s.store) path (fun _ path => path)
  · intro s started
    exact begins _ started.2
  · intro s ⟨i,a⟩ next known before permits ran
    obtain ⟨moved,step,rfl⟩ := together_step ran
    exact steps s i a moved known before permits step

end Parallel
