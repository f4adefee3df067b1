import Mathlib.Data.List.Induction
import Mathlib.Logic.Relation

namespace Transition

-- A labelled machine with an executable partial step. `none` means that the
-- action is not enabled in that state, never that it failed.
structure System (State Action : Type) where
  initial : State → Prop
  step : State → Action → Option State

variable {State Action : Type} {sys : System State Action} {allowed : State → Action → Prop}

inductive Guarded (sys : System State Action) (allowed : State → Action → Prop) : State → Prop where
  | initial : sys.initial s → Guarded sys allowed s
  | step : Guarded sys allowed s → allowed s action → sys.step s action = some next →
      Guarded sys allowed next

abbrev Reached (sys : System State Action) : State → Prop := Guarded sys (fun _ _ => True)

theorem Guarded.act (path : Guarded sys allowed s) (action : Action) (permitted : allowed s action)
    (ran : sys.step s action = some next) : Guarded sys allowed next := .step path permitted ran

theorem Guarded.reached (path : Guarded sys allowed s) : Reached sys s := by
  induction path with
  | initial start => exact .initial start
  | step prior _ ran ih => exact .step ih True.intro ran

-- The induction rule: an invariant may lean on one already proved for the
-- same runs, so each later invariant is stated without the earlier ones.
theorem Guarded.invariant (known holds : State → Prop) (path : Guarded sys allowed s)
    (earlier : ∀ s, Guarded sys allowed s → known s)
    (start : ∀ s, sys.initial s → holds s)
    (preserved : ∀ s action next, known s → holds s → allowed s action →
      sys.step s action = some next → holds next) : holds s := by
  induction path with
  | initial initial => exact start _ initial
  | step prior permitted ran ih => exact preserved _ _ _ (earlier _ prior) ih permitted ran

theorem Guarded.keeps (holds : State → Prop) (path : Guarded sys allowed s)
    (start : ∀ s, sys.initial s → holds s)
    (preserved : ∀ s action next, holds s → allowed s action → sys.step s action = some next → holds next) :
    holds s :=
  Guarded.invariant (fun _ => True) holds path (fun _ _ => True.intro) start
    (fun s action next _ => preserved s action next)

theorem Reached.invariant (holds : State → Prop) (path : Reached sys s)
    (start : ∀ s, sys.initial s → holds s)
    (preserved : ∀ s action next, holds s → sys.step s action = some next → holds next) : holds s :=
  Guarded.keeps holds path start (fun s action next valid _ ran => preserved s action next valid ran)

-- Forward simulation: each step is matched by an abstract move or by nothing.
theorem Reached.simulated {Model : Type} (related : State → Model → Prop) (move : Model → Model → Prop)
    {first : Model} (path : Reached sys s) (start : ∀ s, sys.initial s → related s first)
    (matched : ∀ s model action next, related s model → sys.step s action = some next →
      ∃ later, related next later ∧ (later = model ∨ move model later)) :
    ∃ model, related s model ∧ Relation.ReflTransGen move first model := by
  induction path with
  | initial initial => exact ⟨first,start _ initial,.refl⟩
  | step _ _ ran ih =>
      obtain ⟨model,relation,moves⟩ := ih
      obtain ⟨later,relation',same | moved⟩ := matched _ _ _ _ relation ran
      · exact ⟨model,same ▸ relation',moves⟩
      · exact ⟨later,relation',moves.tail moved⟩

def Leads (sys : System State Action) : State → State → Prop :=
  Relation.ReflTransGen (fun s next => ∃ action, sys.step s action = some next)

theorem Leads.keeps (holds : State → Prop) (path : Leads sys s later) (now : holds s)
    (preserved : ∀ s action next, holds s → sys.step s action = some next → holds next) : holds later := by
  induction path with
  | refl => exact now
  | tail _ move ih =>
      obtain ⟨action,ran⟩ := move
      exact preserved _ _ _ ih ran

def System.run (sys : System State Action) : State → List Action → Option State
  | s,[] => some s
  | s,action :: rest => (sys.step s action).bind (fun next => sys.run next rest)

theorem System.run_cons (ran : sys.step s action = some next) (rest : List Action) :
    sys.run s (action :: rest) = sys.run next rest := by
  simp [System.run,ran]

theorem System.run_append (s : State) (first rest : List Action) :
    sys.run s (first ++ rest) = (sys.run s first).bind (fun s => sys.run s rest) := by
  induction first generalizing s with
  | nil => rfl
  | cons action others ih => simp [System.run,ih,Option.bind_assoc]

theorem System.run_snoc {actions : List Action} {action : Action} :
    sys.run s (actions ++ [action]) = some next ↔
      ∃ before, sys.run s actions = some before ∧ sys.step before action = some next := by
  rw [System.run_append,Option.bind_eq_some_iff]
  simp [System.run]

-- The states one run has been in.
def Visited (sys : System State Action) (start : State) (actions : List Action) (s : State) : Prop :=
  ∃ done, done <+: actions ∧ sys.run start done = some s

-- Where what a state holds comes from: each step brings it from a state of
-- this very run.
theorem Visited.traces {start : State} {actions : List Action} (holds : (State → Prop) → State → Prop)
    (ran : sys.run start actions = some s) (first : ∀ seen, holds seen start)
    (later : ∀ (seen : State → Prop) s action next, holds seen s → sys.step s action = some next → seen next →
      holds seen next) :
    holds (Visited sys start actions) s := by
  suffices along : ∀ done s, done <+: actions → sys.run start done = some s → holds (Visited sys start actions) s from
    along actions s List.prefix_rfl ran
  intro done
  induction done using List.reverseRecOn with
  | nil =>
      rintro s _ ⟨⟩
      exact first _
  | append_singleton done action ih =>
      intro next begins ended
      obtain ⟨before,reached,moved⟩ := System.run_snoc.mp ended
      exact later _ _ _ _ (ih before ((List.prefix_append _ _).trans begins) reached) moved ⟨_,begins,ended⟩

theorem Reached.run (path : Reached sys s) (actions : List Action) (ran : sys.run s actions = some next) :
    Reached sys next := by
  induction actions generalizing s with
  | nil => exact Option.some.inj ran ▸ path
  | cons action rest ih =>
      obtain ⟨middle,first,others⟩ := Option.bind_eq_some_iff.mp ran
      exact ih (path.act action True.intro first) others

end Transition
