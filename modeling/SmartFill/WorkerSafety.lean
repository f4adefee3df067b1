import SmartFill.WorkerCycle

namespace SmartFill

open Transition JobCycle WorkerCycle

namespace WorkerSafety
variable {R : Type}

def pending : Main R → List R
  | .starting task _ _ => [task]
  | _ => []

-- Whether the flag is as the requests say: it is cleared in start(), and from
-- then until the next start() it holds what has been asked for.
def Flagged : Main R → Bool → Bool → Prop
  | .starting _ _ .clearCancel,_,_ => True
  | .starting _ _ _,flag,_ => flag = false
  | _,flag,asked => flag = asked

structure Kept (s : WorkerThreads R) : Prop where
  starts : ∀ start ∈ s.history.starts, start.2 = true ↔ start.1 = .idle
  tasks : s.history.ledger.accepted = s.threads.map RunThread.task ++ pending s.main
  flag : Flagged s.main s.context.cancelRequest (s.history.cancelled || s.history.requested)
  read : s.history.read = some .error → s.state = .error ∧ ∀ next, s.main ≠ .resetting next

theorem fresh_kept : Kept (WorkerThreads.fresh : WorkerThreads R) :=
  ⟨nofun,rfl,rfl,nofun⟩

theorem starts_kept {starts : List (AiWorkerState × Bool)} (kept : ∀ start ∈ starts, start.2 = true ↔ start.1 = .idle)
    (told : result = true ↔ found = .idle) : ∀ start ∈ starts ++ [(found,result)], start.2 = true ↔ start.1 = .idle := by
  intro start member
  rcases List.mem_append.mp member with old | new
  · exact kept start old
  · rw [List.mem_singleton.mp new]
    exact told

theorem call_kept {s : WorkerThreads R} (kept : Kept s) (ready : s.main = .ready) (c : MainCall R) : Kept (s.call c) := by
  obtain ⟨state,context,msg,threads,handle,main,history⟩ := s
  cases ready
  obtain ⟨starts,tasks,flag,read⟩ := kept
  have unread {P : Prop} (seen : (none : Option AiWorkerState) = some .error) : P := by cases seen
  have outside {main : Main R} (elsewhere : main = .joining ∨ main = .destroying ∨ main = .ready) (next : ResetStep) :
      main ≠ .resetting next := by rcases elsewhere with rfl | rfl | rfl <;> intro same <;> cases same
  cases c with
  | start task =>
      cases state with
      | idle => exact ⟨starts,by simpa [WorkerThreads.call,Ledger.accept,pending] using tasks,True.intro,unread⟩
      | running | done | error | cancelled => exact ⟨starts_kept starts (by simp),tasks,flag,unread⟩
  | cancel => exact ⟨starts,tasks,rfl,read⟩
  | join => exact ⟨starts,tasks,flag,fun seen => ⟨(read seen).1,outside (.inl rfl)⟩⟩
  | reset => cases state <;> exact ⟨starts,tasks,flag,unread⟩
  | state => exact ⟨starts,tasks,flag,fun seen => ⟨Option.some.inj seen,outside (.inr (.inr rfl))⟩⟩
  | errorMessage | progress | statusText => exact ⟨starts,tasks,flag,read⟩
  | destroy => exact ⟨starts,tasks,rfl,fun seen => ⟨(read seen).1,outside (.inr (.inl rfl))⟩⟩

theorem proceed_kept {s next : WorkerThreads R} (stage : Stage s slot) (kept : Kept s) (ran : s.proceed = some next) :
    Kept next := by
  obtain ⟨state,context,msg,threads,handle,main,history⟩ := s
  obtain ⟨starts,tasks,flag,read⟩ := kept
  cases main with
  | ready | destroyed | terminated => cases ran
  | joining | destroying =>
      cases joined_then ran
      exact ⟨starts,tasks,flag,fun seen => ⟨(read seen).1,nofun⟩⟩
  | starting task found statement =>
      cases statement with
      | clearCancel =>
          cases ran
          exact ⟨starts,tasks,rfl,fun seen => ⟨(read seen).1,nofun⟩⟩
      | setProgress | setStatusText =>
          cases ran
          exact ⟨starts,tasks,flag,fun seen => ⟨(read seen).1,nofun⟩⟩
      | join =>
          cases joined_then ran
          exact ⟨starts,tasks,flag,fun seen => ⟨(read seen).1,nofun⟩⟩
      | spawn =>
          cases stage with
          | starting _ =>
              cases ran
              refine ⟨starts_kept starts (by simp),?_,flag,fun seen => ⟨(read seen).1,nofun⟩⟩
              simpa [WorkerThreads.spawn,pending] using tasks
          | active _ calm _ => cases calm
          | settled _ calm _ _ _ => rcases calm with calm | calm <;> cases calm
          | idle _ calm => cases calm
  | resetting statement =>
      have unread : history.read ≠ some .error := fun seen => (read seen).2 statement rfl
      cases statement with
      | join =>
          cases joined_then ran
          exact ⟨starts,tasks,flag,fun seen => absurd seen unread⟩
      | clearError | setProgress | setStatusText | store =>
          cases ran
          exact ⟨starts,tasks,flag,fun seen => absurd seen unread⟩

theorem run_state {s next : WorkerThreads R} (stage : Stage s slot) (ran : s.step (.run tid action) = some next) :
    s.state = .running ∨ next.state = s.state := by
  cases stage with
  | idle retired _ | starting retired | clearing retired _ _ _ =>
      rw [run_none retired] at ran
      cases ran
  | active _ _ _ => exact .inl rfl
  | settled retired _ _ _ exit =>
      obtain ⟨rfl,ran⟩ := run_last retired rfl ran
      rcases exit with ⟨rfl,_⟩ | ⟨rfl,_⟩
      · cases action with
        | exit =>
            cases ran
            exact .inr rfl
        | _ => cases ran
      · rw [runStep_exited] at ran
        cases ran

theorem calm_flagged {main : Main R} (calm : main.Calm handle ∨ main = .resetting .join) (flag asked : Bool) :
    Flagged main flag asked = (flag = asked) := by
  cases main with
  | starting _ _ _ => rcases calm with calm | calm <;> cases calm
  | _ => rfl

theorem run_kept {s next : WorkerThreads R} (stage : Stage s slot) (kept : Kept s)
    (ran : s.step (.run tid action) = some next) : Kept next := by
  obtain ⟨task,phase,found,moved⟩ := step_run ran
  have frame := runStep_frame found moved
  obtain ⟨handle,calm⟩ := unexited_calm stage found (runStep_unexited moved)
  have flagged := calm_flagged calm
  refine ⟨?_,?_,?_,?_⟩
  · rw [frame.starts]
    exact kept.starts
  · rw [frame.accepted,frame.tasks,frame.main]
    exact kept.tasks
  · have flag := kept.flag
    rw [flagged] at flag
    rw [frame.main,flagged,frame.cancelled]
    rcases frame.flag with ⟨same,asked⟩ | ⟨raised,asked⟩
    · rw [same,asked,flag]
    · rw [raised,asked,Bool.or_true]
  · rw [frame.read,frame.main]
    intro seen
    obtain ⟨error,outside⟩ := kept.read seen
    rcases run_state stage ran with running | same
    · rw [error] at running
      cases running
    · exact ⟨same.trans error,outside⟩

theorem reached_kept {s : WorkerThreads R} (path : Reached (WorkerThreads.system R) s) : Kept s := by
  apply Guarded.invariant (fun s => ∃ slot, Stage s slot) Kept path
  · intro s path
    obtain ⟨slot,stage,_⟩ := reached_cycle path
    exact ⟨slot,stage⟩
  · intro s start
    cases start
    exact fresh_kept
  · intro s action next known kept _ ran
    obtain ⟨slot,stage⟩ := known
    cases action with
    | call c =>
        obtain ⟨ready,rfl⟩ := step_call ran
        exact call_kept kept ready c
    | proceed => exact proceed_kept stage kept ran
    | run tid action => exact run_kept stage kept ran

def Executing (s : WorkerThreads R) (tid : Nat) : Prop := ∃ task, s.threads[tid]? = some ⟨task,.body⟩

-- Created for a task that has not ended, as run() sees its end.
def Live (s : WorkerThreads R) (tid : Nat) : Prop :=
  ∃ thread, s.threads[tid]? = some thread ∧
    (thread.phase = .created ∨ thread.phase = .body ∨ thread.phase = .returned)

-- The arrows of the state machine, each with what it does to the record.
inductive Change (s next : WorkerThreads R) : Prop where
  | none : next.state = s.state → next.history.ledger.accepted = s.history.ledger.accepted →
      next.history.ledger.settled = s.history.ledger.settled → Change s next
  | started (task : R) : s.state = .idle → next.state = .running →
      next.history.ledger.accepted = s.history.ledger.accepted ++ [task] →
      next.history.ledger.settled = s.history.ledger.settled → Change s next
  | finished (task : R) (outcome : TaskEnd) : s.state = .running → outcome.fits next.state →
      s.history.ledger.accepted.getLast? = some task → s.history.ledger.ended.getLast? = some (task,outcome) →
      s.history.ledger.ended.length = s.history.ledger.accepted.length →
      next.history.ledger.accepted = s.history.ledger.accepted →
      next.history.ledger.settled = s.history.ledger.settled ++ [(task,next.state)] → Change s next
  | cleared : s.state.terminal = true → next.state = .idle →
      next.history.ledger.accepted = s.history.ledger.accepted →
      next.history.ledger.settled = s.history.ledger.settled → Change s next

-- error_message() is what the most recently accepted task threw.
def Thrown (s : WorkerThreads R) : Prop :=
  ∃ task outcome, s.history.ledger.accepted.getLast? = some task ∧
    s.history.ledger.ended.getLast? = some (task,outcome) ∧ outcome ≠ .returned ∧ s.errorMessage = outcome.message

structure Safe (s : WorkerThreads R) : Prop where
  exclusive : ∀ i j, Executing s i → Executing s j → i = j
  started : ∀ found result, (found,result) ∈ s.history.starts → (result = true ↔ found = .idle)
  returns : ∀ task found statement, s.main = .starting task found statement →
    ∃ next, s.step .proceed = some next ∧ next.main ≠ .terminated
  carried : s.history.ledger.accepted = s.threads.map RunThread.task ++ pending s.main
  executed : ∃ waiting, s.history.ledger.accepted = s.history.ledger.begun ++ waiting ∧ waiting.length ≤ 1 ∧
    (waiting ≠ [] → s.state = .running)
  settled : ∃ owed, s.history.ledger.accepted = s.history.ledger.settled.map Prod.fst ++ owed ∧
    owed.length = if s.state = .running then 1 else 0
  ruled : ∃ ended, ended <+: s.history.ledger.ended ∧
    List.Forall₂ (Ruled TaskEnd.fits) ended s.history.ledger.settled
  changes : ∀ action next, s.step action = some next → Change s next
  errors : s.main = .ready → s.state = .error ∨ s.history.read = some .error → s.state = .error ∧ Thrown s
  quiet : s.state = .idle → ∀ later, Leads (WorkerThreads.system R) s later →
    ∀ tid < s.threads.length, ∀ action, later.step (.run tid action) = none
  cancels : ∀ tid, Live s tid → s.context.cancelRequest = (s.history.cancelled || s.history.requested)

theorem unexited_last {s : WorkerThreads R} {tid : Nat} {thread : RunThread R} (stage : Stage s slot)
    (found : s.threads[tid]? = some thread)
    (unfinished : thread.phase ≠ .exited) : tid + 1 = s.threads.length := by
  have last (old : List (RunThread R)) (final : RunThread R) (retired : Retired old)
      (found : (old ++ [final])[tid]? = some thread) : tid + 1 = (old ++ [final]).length := by
    obtain ⟨inside,_⟩ := List.getElem?_eq_some_iff.mp found
    by_cases early : tid < old.length
    · rw [List.getElem?_append_left early] at found
      exact absurd (retired _ (List.mem_of_getElem? found)) unfinished
    · simp only [List.length_append,List.length_singleton] at inside ⊢
      omega
  cases stage with
  | idle retired _ | starting retired | clearing retired _ _ _ =>
      exact absurd (retired _ (List.mem_of_getElem? found)) unfinished
  | active retired _ _ => exact last _ _ retired found
  | settled retired _ _ _ _ => exact last _ _ retired found

def place : TaskSlot R → AiWorkerState
  | .free => .idle
  | .waiting _ | .running _ | .ended _ _ => .running
  | .settled _ _ final => final

theorem stage_state {s : WorkerThreads R} (stage : Stage s slot) : s.state = place slot := by
  cases stage with
  | active _ _ doing => cases doing <;> rfl
  | idle _ _ | starting _ | settled _ _ _ _ _ | clearing _ _ _ _ => rfl

theorem terminal_stopped {final : AiWorkerState} (terminal : final.terminal = true) : final ≠ .running := by
  rintro rfl
  cases terminal

theorem place_running {s : WorkerThreads R} (stage : Stage s slot) :
    slot.owed.length = if place slot = .running then 1 else 0 := by
  cases stage with
  | active _ _ doing => cases doing <;> rfl
  | idle _ _ | starting _ => rfl
  | settled _ _ fitting _ _ | clearing _ _ _ fitting =>
      have terminal := TaskEnd.fits_terminal fitting
      exact (if_neg (terminal_stopped terminal)).symm

theorem waits_running (slot : TaskSlot R) : slot.waits.length ≤ 1 ∧ (slot.waits ≠ [] → place slot = .running) := by
  cases slot <;> simp [Slot.waits,place]

theorem settled_terminal {s : WorkerThreads R} (stage : Stage s slot) (settled : slot = .settled task outcome final) :
    final.terminal = true := by
  subst settled
  cases stage with
  | active _ _ doing => cases doing
  | settled _ _ fitting _ _ | clearing _ _ _ fitting => exact TaskEnd.fits_terminal fitting

theorem move_change {s next : WorkerThreads R} {a b : TaskSlot R × Ledger R TaskEnd AiWorkerState}
    (move : Move TaskEnd.fits a b) (stage : Stage s a.1) (stage' : Stage next b.1)
    (balanced : Balanced TaskEnd.fits a.1 a.2) (recorded : s.history.ledger = a.2)
    (recorded' : next.history.ledger = b.2) : Change s next := by
  have before := stage_state stage
  have after := stage_state stage'
  cases move with
  | accept =>
      rename_i l job
      refine .started job before after ?_ ?_ <;> rw [recorded,recorded'] <;> rfl
  | begin | finish =>
      refine .none (after.trans before.symm) ?_ ?_ <;> rw [recorded,recorded'] <;> rfl
  | settle fitting =>
      rename_i outcome verdict job l
      obtain ⟨accepted,begun,_,latest,last⟩ := balanced
      have lengths := congrArg List.length (accepted.trans (congrArg (· ++ _) begun))
      simp only [Slot.waits,Slot.runs,List.append_nil,List.length_map] at lengths
      refine .finished job outcome before (by rw [after]; exact fitting) ?_ ?_ ?_ ?_ ?_ <;> rw [recorded]
      · exact latest
      · exact last
      · exact lengths.symm
      · rw [recorded']; rfl
      · rw [recorded',after]; rfl
  | release =>
      refine .cleared ?_ after ?_ ?_
      · rw [before]
        exact settled_terminal stage rfl
      · rw [recorded,recorded']
      · rw [recorded,recorded']

theorem step_change {s next : WorkerThreads R} (stage : Stage s slot)
    (balanced : Balanced TaskEnd.fits slot s.history.ledger) (ran : s.step action = some next) : Change s next := by
  obtain ⟨later,stage',same | move⟩ := step_advances stage ran
  · obtain ⟨rfl,ledger⟩ := Prod.mk.inj same
    refine .none ((stage_state stage').trans (stage_state stage).symm) ?_ ?_ <;> rw [ledger]
  · exact move_change move stage stage' balanced rfl rfl

theorem starting_returns {s : WorkerThreads R} (stage : Stage s slot) (starting : s.main = .starting task found statement) :
    ∃ next, s.step .proceed = some next ∧ next.main ≠ .terminated := by
  cases stage with
  | starting _ =>
      cases starting
      cases statement with
      | clearCancel | setProgress | setStatusText | join => exact ⟨_,rfl,nofun⟩
      | spawn => exact ⟨_,rfl,nofun⟩
  | clearing _ _ _ _ => cases starting
  | idle _ calm | active _ calm _ =>
      cases starting
      cases calm
  | settled _ calm _ _ _ =>
      cases starting
      rcases calm with calm | calm <;> cases calm

theorem errors_thrown {s : WorkerThreads R} (stage : Stage s slot) (balanced : Balanced TaskEnd.fits slot s.history.ledger)
    (ready : s.main = .ready) (error : s.state = .error) : Thrown s := by
  cases stage with
  | idle _ _ | starting _ | active _ _ _ => cases error
  | clearing _ _ _ _ => cases ready
  | @settled _ _ _ _ _ _ _ _ _ task _ _ fitting message _ =>
      cases error
      obtain ⟨latest,last⟩ := balanced.latest
      refine ⟨task,_,latest,last,?_,message rfl⟩
      rintro rfl
      rcases fitting with fitting | fitting <;> cases fitting

theorem call_threads (s : WorkerThreads R) (c : MainCall R) : (s.call c).threads = s.threads := by
  obtain ⟨state,context,msg,threads,handle,main,history⟩ := s
  cases c with
  | start _ | reset => cases state <;> rfl
  | _ => rfl

theorem proceed_threads {s next : WorkerThreads R} (ran : s.proceed = some next) : s.threads <+: next.threads := by
  obtain ⟨state,context,msg,threads,handle,main,history⟩ := s
  cases main with
  | ready | destroyed | terminated => cases ran
  | joining | destroying =>
      cases joined_then ran
      exact List.prefix_refl _
  | starting task found statement =>
      cases statement with
      | join =>
          cases joined_then ran
          exact List.prefix_refl _
      | spawn =>
          cases ran
          cases handle with
          | none => exact List.prefix_append _ _
          | some _ => exact List.prefix_refl _
      | _ =>
          cases ran
          exact List.prefix_refl _
  | resetting statement =>
      cases statement with
      | join =>
          cases joined_then ran
          exact List.prefix_refl _
      | _ =>
          cases ran
          exact List.prefix_refl _

theorem runStep_threads {s next : WorkerThreads R} (ran : s.runStep tid task phase action = some next) {i : Nat}
    (other : tid ≠ i) : next.threads[i]? = s.threads[i]? := by
  unfold WorkerThreads.runStep at ran
  split at ran
  all_goals cases ran
  all_goals first
    | rfl
    | exact List.getElem?_set_ne other

theorem exited_quiet {s : WorkerThreads R} {tid : Nat} {task : R} (gone : s.threads[tid]? = some ⟨task,.exited⟩)
    (action : RunAction) : s.step (.run tid action) = none := by
  simp only [WorkerThreads.step,gone]
  exact runStep_exited action

-- A step appends a thread or moves one that has not returned.
theorem exited_stays {s next : WorkerThreads R} {tid : Nat} {task : R}
    (gone : s.threads[tid]? = some ⟨task,.exited⟩) (ran : s.step action = some next) :
    next.threads[tid]? = some ⟨task,.exited⟩ := by
  cases action with
  | call c =>
      obtain ⟨_,rfl⟩ := step_call ran
      rw [call_threads]
      exact gone
  | proceed =>
      obtain ⟨more,threads⟩ := proceed_threads ran
      obtain ⟨inside,_⟩ := List.getElem?_eq_some_iff.mp gone
      rw [←threads,List.getElem?_append_left inside]
      exact gone
  | run other action =>
      by_cases same : other = tid
      · subst other
        rw [exited_quiet gone] at ran
        cases ran
      · obtain ⟨_,_,_,ran⟩ := step_run ran
        rw [runStep_threads ran same]
        exact gone

theorem idle_quiet {s later : WorkerThreads R} (stage : Stage s slot) (idle : s.state = .idle)
    (path : Leads (WorkerThreads.system R) s later) (inside : tid < s.threads.length) (action : RunAction) :
    later.step (.run tid action) = none := by
  have retired : Retired s.threads := by
    cases stage with
    | idle retired _ => exact retired
    | starting _ | active _ _ _ => cases idle
    | settled _ _ fitting _ _ | clearing _ _ _ fitting =>
        have terminal := TaskEnd.fits_terminal fitting
        cases idle
        cases terminal
  obtain ⟨thread,found⟩ : ∃ thread, s.threads[tid]? = some thread := ⟨_,List.getElem?_eq_getElem inside⟩
  obtain ⟨task,phase⟩ := thread
  cases retired _ (List.mem_of_getElem? found)
  have gone := path.keeps (fun later => later.threads[tid]? = some ⟨task,.exited⟩) found
    (fun _ _ _ gone ran => exited_stays gone ran)
  exact exited_quiet gone action

theorem worker_safe {s : WorkerThreads R} (path : Reached (WorkerThreads.system R) s) : Safe s := by
  obtain ⟨slot,stage,balanced⟩ := reached_cycle path
  have kept := reached_kept path
  have state := stage_state stage
  refine ⟨?_,fun _ _ told => kept.starts _ told,?_,kept.tasks,?_,?_,balanced.ruled_ends,?_,?_,?_,?_⟩
  · rintro i j ⟨_,first⟩ ⟨_,second⟩
    have last := unexited_last stage first nofun
    have last' := unexited_last stage second nofun
    omega
  · intro task found statement starting
    exact starting_returns stage starting
  · obtain ⟨few,running⟩ := waits_running slot
    exact ⟨slot.waits,balanced.accepted,few,fun waits => state.trans (running waits)⟩
  · exact ⟨slot.owed,balanced.settled_once,by rw [state,place_running stage]⟩
  · intro action next ran
    exact step_change stage balanced ran
  · intro ready error
    have now : s.state = .error := error.elim id (fun seen => (kept.read seen).1)
    exact ⟨now,errors_thrown stage balanced ready now⟩
  · intro idle later path tid inside action
    exact idle_quiet stage idle path inside action
  · rintro tid ⟨thread,found,live⟩
    have unfinished : thread.phase ≠ .exited := by rcases live with phase | phase | phase <;> rw [phase] <;> nofun
    have flag := kept.flag
    obtain ⟨handle,calm⟩ := unexited_calm stage found unfinished
    rwa [calm_flagged calm] at flag

-- cancel(); start(); the task throws; state() finds Error.
def thrownRun : List (WorkerAction Unit) :=
  [.call .cancel,.call (.start ()),.proceed,.proceed,.proceed,.proceed,.proceed,.run 0 .enter,
    .run 0 (.leave (.threw (ascii "out of memory"))),.run 0 .storeError,.run 0 .storeState,.call .state]

theorem worker_safe_thrown : ∃ s : WorkerThreads Unit, (WorkerThreads.system Unit).run .fresh thrownRun = some s ∧
    s.state = .error ∧ s.errorMessage = ascii "out of memory" ∧ s.context.cancelRequest = false ∧ Safe s :=
  ⟨_,rfl,rfl,rfl,rfl,worker_safe (Reached.run (.initial rfl) thrownRun rfl)⟩

end WorkerSafety

end SmartFill
