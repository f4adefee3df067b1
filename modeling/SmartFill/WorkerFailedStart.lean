import SmartFill.WorkerCycle

namespace SmartFill

open Transition WorkerCycle

-- A step of the worker, or one of the two statements of start() that can throw:
-- an allocation failing in set_status_text, std::thread's constructor.
inductive StartAction (R : Type) where
  | worker (action : WorkerAction R)
  | statusTextThrows
  | threadThrows

def StartAction.throws : StartAction R → Bool
  | .worker _ => false
  | .statusTextThrows | .threadThrows => true

namespace WorkerFailedStart
variable {R : Type}

-- The exception leaves start() where it is: no handler stores state_ again, and
-- the caller has the main thread back.
def step (s : WorkerThreads R) : StartAction R → Option (WorkerThreads R)
  | .worker action => s.step action
  | .statusTextThrows =>
    match s.main with
    | .starting _ _ .setStatusText => some {s with main := .ready}
    | _ => none
  | .threadThrows =>
    match s.main with
    | .starting _ _ .spawn => some {s with main := .ready}
    | _ => none

def system (R : Type) : System (WorkerThreads R) (StartAction R) := ⟨(· = WorkerThreads.fresh),step⟩

def Starting (s : WorkerThreads R) : Prop := ∃ task found next, s.main = .starting task found next

-- start() is about to create the thread, or there is one whose run() has not
-- returned.
def Served (s : WorkerThreads R) : Prop :=
  Starting s ∨ ∃ (tid : Nat) (thread : RunThread R), s.threads[tid]? = some thread ∧ thread.phase ≠ .exited

-- Steps of start() and of the thread alone lead to a terminal state.
inductive Publishes : WorkerThreads R → Prop where
  | done : s.state.terminal = true → Publishes s
  | proceed : s.step .proceed = some next → Publishes next → Publishes s
  | run : s.step (.run tid action) = some next → Publishes next → Publishes s

structure Usable (s : WorkerThreads R) : Prop where
  served : s.state = .running → Served s
  publishes : s.state = .running → Publishes s

section Progress
variable {s : WorkerThreads R} {old : List (RunThread R)}

theorem step_last (last : s.threads = old ++ [⟨task,phase⟩]) (action : RunAction) :
    s.step (.run old.length action) = s.runStep old.length task phase action := by
  simp [WorkerThreads.step,last]

theorem stored_publishes (last : s.threads = old ++ [⟨task,.stored final⟩]) (terminal : final.terminal = true) :
    Publishes s := by
  apply Publishes.run ((step_last last .storeState).trans rfl)
  exact .done terminal

theorem ended_publishes (last : s.threads = old ++ [⟨task,.ended final err⟩]) (terminal : final.terminal = true) :
    Publishes s := by
  cases final
  all_goals
    apply Publishes.run ((step_last last .storeError).trans rfl)
    rw [seat_last last]
    exact stored_publishes rfl terminal

theorem returned_publishes (last : s.threads = old ++ [⟨task,.returned⟩]) : Publishes s := by
  apply Publishes.run ((step_last last .shouldCancel).trans rfl)
  rw [seat_last last]
  refine ended_publishes rfl ?_
  split <;> rfl

theorem body_publishes (last : s.threads = old ++ [⟨task,.body⟩]) : Publishes s := by
  apply Publishes.run ((step_last last (.leave .returned)).trans rfl)
  rw [seat_last last]
  exact returned_publishes rfl

theorem created_publishes (last : s.threads = old ++ [⟨task,.created⟩]) : Publishes s := by
  apply Publishes.run ((step_last last .enter).trans rfl)
  rw [seat_last last]
  exact body_publishes rfl

end Progress

theorem starting_publishes {threads : List (RunThread R)} {context : AiWorkerContext} {history : History R} (task : R)
    (found : AiWorkerState) (next : StartStep) :
    Publishes ⟨.running,context,[],threads,none,.starting task found next,history⟩ := by
  have spawn (context : AiWorkerContext) :
      Publishes ⟨.running,context,[],threads,none,.starting task found .spawn,history⟩ := .proceed rfl (created_publishes rfl)
  have join (context : AiWorkerContext) :
      Publishes ⟨.running,context,[],threads,none,.starting task found .join,history⟩ := .proceed rfl (spawn _)
  have text (context : AiWorkerContext) :
      Publishes ⟨.running,context,[],threads,none,.starting task found .setStatusText,history⟩ := .proceed rfl (join _)
  have progress (context : AiWorkerContext) :
      Publishes ⟨.running,context,[],threads,none,.starting task found .setProgress,history⟩ := .proceed rfl (text _)
  cases next with
  | clearCancel => exact .proceed rfl (progress _)
  | setProgress => exact progress _
  | setStatusText => exact text _
  | join => exact join _
  | spawn => exact spawn _

theorem doing_publishes {s : WorkerThreads R} {old : List (RunThread R)} (last : s.threads = old ++ [⟨task,phase⟩])
    (doing : Doing task phase msg slot) : Publishes s := by
  cases doing with
  | created => exact created_publishes last
  | body => exact body_publishes last
  | returned => exact returned_publishes last
  | ended fitting _ => exact ended_publishes last (TaskEnd.fits_terminal fitting)
  | stored fitting _ => exact stored_publishes last (TaskEnd.fits_terminal fitting)

theorem settled_running (fitting : TaskEnd.fits outcome final) : final ≠ .running := by
  rintro rfl
  cases TaskEnd.fits_terminal fitting

theorem stage_usable {s : WorkerThreads R} (stage : Stage s slot) : Usable s := by
  cases stage with
  | idle _ _ =>
      constructor
      all_goals
        intro running
        cases running
  | starting _ =>
      constructor
      · intro _
        exact .inl ⟨_,_,_,rfl⟩
      · intro _
        exact starting_publishes _ _ _
  | @active old task phase msg _ _ _ _ _ _ doing =>
      constructor
      · intro _
        exact .inr ⟨old.length,⟨task,phase⟩,by simp,doing_unexited doing⟩
      · intro _
        exact doing_publishes rfl doing
  | settled _ _ fitting _ _ | clearing _ _ _ fitting =>
      constructor
      all_goals
        intro running
        exact absurd running (settled_running fitting)

-- Running with no thread, and the main thread in no call that could change it.
structure Stuck (s : WorkerThreads R) : Prop where
  running : s.state = .running
  retired : Retired s.threads
  handle : s.handle = none
  main : s.main.Calm none

theorem stuck_unserved {s : WorkerThreads R} (stuck : Stuck s) : ¬ Served s := by
  rintro (⟨task,found,next,starting⟩ | ⟨tid,thread,held,unfinished⟩)
  · have calm := stuck.main
    rw [starting] at calm
    cases calm
  · exact unfinished (stuck.retired _ (List.mem_of_getElem? held))

theorem call_stuck {s : WorkerThreads R} (stuck : Stuck s) (c : MainCall R) : Stuck (s.call c) := by
  obtain ⟨running,retired,handle,calm⟩ := stuck
  obtain ⟨state,context,msg,threads,held,main,history⟩ := s
  cases running
  cases handle
  cases c with
  | start _ | cancel | reset | state | errorMessage | progress | statusText => exact ⟨rfl,retired,rfl,calm⟩
  | join | destroy => exact ⟨rfl,retired,rfl,True.intro⟩

theorem proceed_stuck {s next : WorkerThreads R} (stuck : Stuck s) (ran : s.proceed = some next) : Stuck next := by
  obtain ⟨running,retired,handle,calm⟩ := stuck
  obtain ⟨state,context,msg,threads,held,main,history⟩ := s
  cases running
  cases handle
  cases main with
  | ready | destroyed => cases ran
  | joining =>
      cases ran
      exact ⟨rfl,retired,rfl,True.intro⟩
  | destroying =>
      cases ran
      exact ⟨rfl,retired,rfl,rfl⟩
  | starting _ _ _ | resetting _ | terminated => cases calm

theorem step_stuck {s next : WorkerThreads R} (stuck : Stuck s) (ran : step s action = some next) : Stuck next := by
  cases action with
  | worker action =>
      cases action with
      | call c =>
          obtain ⟨_,rfl⟩ := step_call ran
          exact call_stuck stuck c
      | proceed => exact proceed_stuck stuck ran
      | run tid action =>
          have nothing := run_none stuck.retired tid action
          rw [step,nothing] at ran
          cases ran
  | statusTextThrows | threadThrows =>
      have calm := stuck.main
      unfold step at ran
      dsimp only at ran
      split at ran
      · rename_i starting
        rw [starting] at calm
        cases calm
      · cases ran

-- Whichever of the two statements throws, start() has published Running and
-- nothing takes it back.
theorem throw_stuck {s next : WorkerThreads R} (path : Reached (WorkerThreads.system R) s) (throws : action.throws = true)
    (ran : step s action = some next) : Stuck next := by
  obtain ⟨slot,stage,_⟩ := reached_cycle path
  have starting : Starting s ∧ next = {s with main := .ready} := by
    cases action with
    | worker _ => cases throws
    | statusTextThrows | threadThrows =>
        unfold step at ran
        dsimp only at ran
        split at ran
        · rename_i starting
          cases ran
          exact ⟨⟨_,_,_,starting⟩,rfl⟩
        · cases ran
  obtain ⟨⟨task,found,statement,main⟩,rfl⟩ := starting
  cases stage with
  | starting retired => exact ⟨rfl,retired,rfl,True.intro⟩
  | idle _ calm | active _ calm _ =>
      dsimp only at main
      rw [main] at calm
      cases calm
  | settled _ calm _ _ _ =>
      dsimp only at main
      rw [main] at calm
      rcases calm with calm | same
      · cases calm
      · cases same
  | clearing _ _ _ _ => cases main

theorem run_stuck {s next : WorkerThreads R} (actions : List (StartAction R)) (stuck : Stuck s)
    (ran : (system R).run s actions = some next) : Stuck next := by
  induction actions generalizing s with
  | nil => exact Option.some.inj ran ▸ stuck
  | cons action rest ih =>
      obtain ⟨middle,first,others⟩ := Option.bind_eq_some_iff.mp ran
      exact ih (step_stuck stuck first) others

-- A run either is one of the worker's own, or has got stuck on the way.
theorem run_splits {s next : WorkerThreads R} (actions : List (StartAction R)) (path : Reached (WorkerThreads.system R) s)
    (ran : (system R).run s actions = some next) :
    (∀ a ∈ actions, a.throws = false) ∧ Reached (WorkerThreads.system R) next ∨
      (∃ a ∈ actions, a.throws = true) ∧ Stuck next := by
  induction actions generalizing s with
  | nil =>
      left
      refine ⟨?_,Option.some.inj ran ▸ path⟩
      intro a member
      cases member
  | cons action rest ih =>
      obtain ⟨middle,first,others⟩ := Option.bind_eq_some_iff.mp ran
      by_cases throws : action.throws = true
      · right
        exact ⟨⟨action,List.mem_cons_self,throws⟩,run_stuck rest (throw_stuck path throws first) others⟩
      · cases action with
        | worker action =>
            rcases ih (path.act action True.intro first) others with ⟨clean,reached⟩ | ⟨⟨a,member,throws⟩,stuck⟩
            · exact .inl ⟨List.forall_mem_cons.mpr ⟨rfl,clean⟩,reached⟩
            · exact .inr ⟨⟨a,List.mem_cons_of_mem _ member,throws⟩,stuck⟩
        | statusTextThrows | threadThrows => exact absurd rfl throws

theorem fresh_reached : Reached (WorkerThreads.system R) WorkerThreads.fresh := .initial rfl

-- A run keeps the worker usable exactly as long as no start() in it has thrown;
-- one that throws leaves Running, for good.
theorem failed_start_iff (actions : List (StartAction R)) (s : WorkerThreads R)
    (ran : (system R).run WorkerThreads.fresh actions = some s) :
    (Usable s ↔ ∀ a ∈ actions, a.throws = false) ∧
    ((∃ a ∈ actions, a.throws = true) → s.state = .running ∧ ¬ Served s ∧
      ∀ later, Leads (system R) s later → later.state = .running ∧ ¬ Served later) := by
  rcases run_splits actions fresh_reached ran with ⟨clean,reached⟩ | ⟨⟨a,member,throws⟩,stuck⟩
  · obtain ⟨slot,stage,_⟩ := reached_cycle reached
    refine ⟨iff_of_true (stage_usable stage) clean,?_⟩
    rintro ⟨a,member,throws⟩
    rw [clean a member] at throws
    cases throws
  · constructor
    · apply iff_of_false
      · intro usable
        exact stuck_unserved stuck (usable.served stuck.running)
      · intro clean
        rw [clean a member] at throws
        cases throws
    · intro _
      refine ⟨stuck.running,stuck_unserved stuck,?_⟩
      intro later path
      have still := Leads.keeps Stuck path stuck (fun _ _ _ stuck ran => step_stuck stuck ran)
      exact ⟨still.running,stuck_unserved still⟩

-- A first start() up to the thread.
def begun : List (StartAction Unit) :=
  [.worker (.call (.start ())),.worker .proceed,.worker .proceed,.worker .proceed,.worker .proceed]

theorem failed_start_begun : ∃ s, Usable (s : WorkerThreads Unit) ∧ s.state = .running :=
  ⟨_,(failed_start_iff (begun ++ [.worker .proceed]) _ rfl).1.mpr (by decide),rfl⟩

theorem failed_start_running : ¬ ∀ (s : WorkerThreads Unit) (actions : List (StartAction Unit)) (action : StartAction Unit)
    (next : WorkerThreads Unit), (system Unit).run WorkerThreads.fresh actions = some s → action.throws = true →
      step s action = some next → next.state = .idle := by
  intro claim
  have idle := claim _ begun .threadThrows _ rfl rfl rfl
  cases idle

end WorkerFailedStart
end SmartFill
