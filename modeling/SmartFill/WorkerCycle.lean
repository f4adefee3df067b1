import SmartFill.WorkerThreads

namespace SmartFill

open Transition JobCycle

def TaskEnd.fits : TaskEnd → AiWorkerState → Prop
  | .returned,final => final = .done ∨ final = .cancelled
  | .threw _,final | .unknown,final => final = .error

theorem TaskEnd.fits_terminal {outcome : TaskEnd} (fitting : outcome.fits final) : final.terminal = true := by
  cases outcome with
  | returned => rcases fitting with rfl | rfl <;> rfl
  | threw _ => cases fitting; rfl
  | unknown => cases fitting; rfl

-- The main thread where a worker thread may still run beside it. It is past the
-- destructor only once there is nothing left to join.
def Main.Calm : Main R → Option Nat → Prop
  | .ready,_ | .joining,_ | .destroying,_ => True
  | .destroyed,handle => handle = none
  | _,_ => False

namespace WorkerCycle
variable {R : Type}

abbrev TaskSlot (R : Type) := Slot R TaskEnd AiWorkerState

def Retired (threads : List (RunThread R)) : Prop := ∀ thread ∈ threads, thread.phase = .exited

-- The live thread's phase, error_message_ and the place of its task.
inductive Doing (task : R) : Phase → Bytes → TaskSlot R → Prop where
  | created : Doing task .created [] (.waiting task)
  | body : Doing task .body [] (.running task)
  | returned : Doing task .returned [] (.ended task .returned)
  | ended : TaskEnd.fits outcome final → (final = .error → err = outcome.message) →
      Doing task (.ended final err) [] (.ended task outcome)
  | stored : TaskEnd.fits outcome final → (final = .error → msg = outcome.message) →
      Doing task (.stored final) msg (.ended task outcome)

-- Everything the two threads can be in together, and the abstract slot it is.
inductive Stage : WorkerThreads R → TaskSlot R → Prop where
  | idle : Retired threads → main.Calm none → Stage ⟨.idle,context,[],threads,none,main,history⟩ .free
  | starting : Retired threads →
      Stage ⟨.running,context,[],threads,none,.starting task .idle next,history⟩ (.waiting task)
  | active : Retired old → main.Calm (some old.length) → Doing task phase msg slot →
      Stage ⟨.running,context,msg,old ++ [⟨task,phase⟩],some old.length,main,history⟩ slot
  | settled : Retired old → main.Calm handle ∨ main = .resetting .join → TaskEnd.fits outcome final →
      (final = .error → msg = outcome.message) →
      phase = .published ∧ handle = some old.length ∨ phase = .exited ∧ (handle = some old.length ∨ handle = none) →
      Stage ⟨final,context,msg,old ++ [⟨task,phase⟩],handle,main,history⟩ (.settled task outcome final)
  | clearing : Retired threads → next ≠ .join → (next ≠ .clearError → msg = []) → TaskEnd.fits outcome final →
      Stage ⟨final,context,msg,threads,none,.resetting next,history⟩ (.settled task outcome final)

theorem Retired.append {threads : List (RunThread R)} (retired : Retired threads) (task : R) :
    Retired (threads ++ [⟨task,.exited⟩]) := by
  intro thread member
  rcases List.mem_append.mp member with old | last
  · exact retired thread old
  · rw [List.mem_singleton.mp last]

theorem fresh_stage : Stage (WorkerThreads.fresh : WorkerThreads R) .free :=
  .idle (fun _ member => nomatch member) True.intro

-- The abstract side of one step: the slot it leads to, by one move or none.
def Advances (slot : TaskSlot R) (s next : WorkerThreads R) : Prop :=
  ∃ later, Stage next later ∧
    ((later,next.history.ledger) = (slot,s.history.ledger) ∨
      Move TaskEnd.fits (slot,s.history.ledger) (later,next.history.ledger))

theorem Advances.stays {slot : TaskSlot R} {s next : WorkerThreads R} (stage : Stage next slot)
    (same : next.history.ledger = s.history.ledger) : Advances slot s next :=
  ⟨slot,stage,.inl (by rw [same])⟩

theorem Advances.moves {slot later : TaskSlot R} {s next : WorkerThreads R} (stage : Stage next later)
    (move : Move TaskEnd.fits (slot,s.history.ledger) (later,next.history.ledger)) : Advances slot s next :=
  ⟨later,stage,.inr move⟩

theorem call_advances {slot : TaskSlot R} {s : WorkerThreads R} (stage : Stage s slot) (ready : s.main = .ready)
    (c : MainCall R) : Advances slot s (s.call c) := by
  cases stage with
  | idle retired calm =>
      cases ready
      cases c with
      | start task => exact .moves (.starting retired) .accept
      | cancel | join | reset | state | errorMessage | progress | statusText | destroy =>
          exact .stays (.idle retired True.intro) rfl
  | starting _ => cases ready
  | active retired calm doing =>
      cases ready
      cases c with
      | start _ | cancel | join | reset | state | errorMessage | progress | statusText | destroy =>
          exact .stays (.active retired True.intro doing) rfl
  | settled retired calm fitting message exit =>
      cases ready
      have terminal := TaskEnd.fits_terminal fitting
      rename_i final _ _ _ _ _ _
      cases final with
      | idle | running => cases terminal
      | done | error | cancelled =>
          cases c with
          | reset => exact .stays (.settled retired (.inr rfl) fitting message exit) rfl
          | start _ | cancel | join | state | errorMessage | progress | statusText | destroy =>
              exact .stays (.settled retired (.inl True.intro) fitting message exit) rfl
  | clearing _ => cases ready

-- A join finds nothing to join or waits for a thread that has returned, and
-- then thread_ can join nothing.
theorem joined_cases {s next : WorkerThreads R} (joined : s.joined = some next) :
    next = {s with handle := none} ∧
      (s.handle = none ∨ ∃ tid task, s.handle = some tid ∧ s.threads[tid]? = some ⟨task,.exited⟩) := by
  unfold WorkerThreads.joined at joined
  split at joined
  · rename_i nothing
    cases joined
    exact ⟨by rw [←nothing],.inl nothing⟩
  · rename_i tid holds
    split at joined
    · rename_i task found
      cases joined
      exact ⟨rfl,.inr ⟨tid,task,holds,found⟩⟩
    · cases joined

theorem joined_then {s next : WorkerThreads R} {rest : WorkerThreads R → WorkerThreads R}
    (ran : s.joined.map rest = some next) : next = rest {s with handle := none} := by
  obtain ⟨middle,joined,rfl⟩ := Option.map_eq_some_iff.mp ran
  rw [(joined_cases joined).1]

-- The last thread is past its last statement once a join gets past it.
theorem joined_exited {s next : WorkerThreads R} (last : s.threads = old ++ [⟨task,phase⟩])
    (held : s.handle = some old.length) (joined : s.joined = some next) : phase = .exited := by
  obtain ⟨_,nothing | ⟨tid,other,holds,found⟩⟩ := joined_cases joined
  · rw [nothing] at held
    cases held
  · rw [holds] at held
    cases held
    rw [last,List.getElem?_concat_length] at found
    cases found
    rfl

theorem settled_joined {s next : WorkerThreads R} (last : s.threads = old ++ [⟨task,phase⟩])
    (exit : phase = .published ∧ s.handle = some old.length ∨
      phase = .exited ∧ (s.handle = some old.length ∨ s.handle = none))
    (joined : s.joined = some next) : phase = .exited ∧ next = {s with handle := none} := by
  refine ⟨?_,(joined_cases joined).1⟩
  rcases exit with ⟨_,held⟩ | ⟨gone,_⟩
  · exact joined_exited last held joined
  · exact gone

theorem doing_unexited (doing : Doing task phase msg slot) : phase ≠ .exited := by
  cases doing <;> simp

theorem proceed_advances {slot : TaskSlot R} {s next : WorkerThreads R} (stage : Stage s slot)
    (ran : s.proceed = some next) : Advances slot s next := by
  cases stage with
  | @idle threads context main history retired calm =>
      cases main with
      | ready | destroyed => cases ran
      | joining =>
          cases ran
          exact .stays (.idle retired True.intro) rfl
      | destroying =>
          cases ran
          exact .stays (.idle retired rfl) rfl
      | starting _ _ _ | resetting _ | terminated => cases calm
  | @starting threads context task statement history retired =>
      cases statement with
      | clearCancel | setProgress | setStatusText | join =>
          cases ran
          exact .stays (.starting retired) rfl
      | spawn =>
          cases ran
          exact .stays (.active retired True.intro .created) rfl
  | @active old task phase msg slot context main history retired calm doing =>
      cases main with
      | ready => cases ran
      | destroyed => cases calm
      | joining | destroying =>
          obtain ⟨middle,joined,_⟩ := Option.map_eq_some_iff.mp ran
          exact absurd (joined_exited rfl rfl joined) (doing_unexited doing)
      | starting _ _ _ | resetting _ | terminated => cases calm
  | @settled old main outcome final msg phase handle context history task retired calm fitting message exit =>
      rcases calm with calm | rfl
      · cases main with
        | ready | destroyed => cases ran
        | joining =>
            obtain ⟨middle,joined,rfl⟩ := Option.map_eq_some_iff.mp ran
            obtain ⟨gone,rfl⟩ := settled_joined rfl exit joined
            exact .stays (.settled retired (.inl True.intro) fitting message (.inr ⟨gone,.inr rfl⟩)) rfl
        | destroying =>
            obtain ⟨middle,joined,rfl⟩ := Option.map_eq_some_iff.mp ran
            obtain ⟨gone,rfl⟩ := settled_joined rfl exit joined
            exact .stays (.settled retired (.inl rfl) fitting message (.inr ⟨gone,.inr rfl⟩)) rfl
        | starting _ _ _ | resetting _ | terminated => cases calm
      · obtain ⟨middle,joined,rfl⟩ := Option.map_eq_some_iff.mp ran
        obtain ⟨rfl,rfl⟩ := settled_joined rfl exit joined
        exact .stays (.clearing (retired.append task) (by simp) (by simp) fitting) rfl
  | @clearing threads statement msg outcome final context history task retired later message fitting =>
      cases statement with
      | join => contradiction
      | clearError =>
          cases ran
          exact .stays (.clearing retired (by simp) (fun _ => rfl) fitting) rfl
      | setProgress | setStatusText =>
          cases ran
          exact .stays (.clearing retired (by simp) (fun _ => message (by simp)) fitting) rfl
      | store =>
          cases message (by simp)
          cases ran
          exact .moves (.idle retired True.intro) .release

theorem step_call {s next : WorkerThreads R} (ran : s.step (.call c) = some next) : s.main = .ready ∧ next = s.call c := by
  unfold WorkerThreads.step at ran
  dsimp only at ran
  split at ran
  · rename_i ready
    cases ran
    exact ⟨ready,rfl⟩
  · cases ran

theorem step_run {s next : WorkerThreads R} (ran : s.step (.run tid action) = some next) :
    ∃ task phase, s.threads[tid]? = some ⟨task,phase⟩ ∧ s.runStep tid task phase action = some next := by
  unfold WorkerThreads.step at ran
  dsimp only at ran
  split at ran
  · rename_i task phase found
    exact ⟨task,phase,found,ran⟩
  · cases ran

theorem runStep_exited {s : WorkerThreads R} (action : RunAction) : s.runStep tid task .exited action = none := by
  cases action <;> rfl

theorem runStep_unexited {s : WorkerThreads R} (ran : s.runStep tid task phase action = some next) : phase ≠ .exited := by
  rintro rfl
  rw [runStep_exited] at ran
  cases ran

-- Only an error leaves its message behind.
theorem runStep_ended {s next : WorkerThreads R} (ran : s.runStep tid task (.ended final err) action = some next) :
    action = .storeError ∧
      next = {s.seat tid task (.stored final) with errorMessage := if final = .error then err else s.errorMessage} := by
  cases action with
  | storeError => cases final <;> cases ran <;> exact ⟨rfl,rfl⟩
  | _ => cases final <;> cases ran

-- Only the last thread can take a step while the others have returned.
theorem run_last {s next : WorkerThreads R} (retired : Retired old) (last : s.threads = old ++ [⟨task,phase⟩])
    (ran : s.step (.run tid action) = some next) : tid = old.length ∧ s.runStep tid task phase action = some next := by
  simp only [WorkerThreads.step,last] at ran
  split at ran
  · rename_i other _ found
    by_cases early : tid < old.length
    · rw [List.getElem?_append_left early] at found
      cases retired _ (List.mem_of_getElem? found)
      rw [runStep_exited] at ran
      cases ran
    · rw [List.getElem?_append_right (by omega)] at found
      have position : tid - old.length = 0 := by
        by_contra beyond
        rw [List.getElem?_eq_none (by simp; omega)] at found
        cases found
      rw [position] at found
      cases found
      exact ⟨by omega,ran⟩
  · cases ran

theorem run_none {s : WorkerThreads R} (retired : Retired s.threads) (tid : Nat) (action : RunAction) :
    s.step (.run tid action) = none := by
  unfold WorkerThreads.step
  dsimp only
  split
  · rename_i found
    cases retired _ (List.mem_of_getElem? found)
    exact runStep_exited action
  · rfl

theorem seat_last {s : WorkerThreads R} (last : s.threads = old ++ [⟨task,phase⟩]) (later : Phase) :
    s.seat old.length task later = {s with threads := old ++ [⟨task,later⟩]} := by
  simp [WorkerThreads.seat,last]

theorem active_advances {s next : WorkerThreads R} (retired : Retired old) (calm : s.main.Calm (some old.length))
    (doing : Doing task phase s.errorMessage slot) (running : s.state = .running) (held : s.handle = some old.length)
    (last : s.threads = old ++ [⟨task,phase⟩]) (ran : s.runStep old.length task phase action = some next) :
    Advances slot s next := by
  obtain ⟨state,context,msg,threads,handle,main,history⟩ := s
  cases running
  cases held
  cases last
  cases doing with
  | created =>
      cases action with
      | enter =>
          cases ran
          rw [seat_last rfl]
          exact .moves (.active retired calm .body) .begin
      | _ => cases ran
  | body =>
      cases action with
      | setProgress _ | setStatusText _ | requestCancel =>
          cases ran
          exact .stays (.active retired calm .body) rfl
      | leave outcome =>
          cases outcome with
          | returned =>
              cases ran
              rw [seat_last rfl]
              exact .moves (.active retired calm .returned) .finish
          | threw what =>
              have thrown : Doing task (.ended .error what) [] (.ended task (.threw what)) := .ended rfl (fun _ => rfl)
              cases ran
              rw [seat_last rfl]
              exact .moves (.active retired calm thrown) .finish
          | unknown =>
              have thrown : Doing task (.ended .error TaskEnd.unknown.message) [] (.ended task .unknown) :=
                .ended rfl (fun _ => rfl)
              cases ran
              rw [seat_last rfl]
              exact .moves (.active retired calm thrown) .finish
      | _ => cases ran
  | returned =>
      cases action with
      | shouldCancel =>
          cases ran
          rw [seat_last rfl]
          refine .stays (.active retired calm (.ended ?_ (fun _ => rfl))) rfl
          split
          · exact .inr rfl
          · exact .inl rfl
      | _ => cases ran
  | ended fitting message =>
      obtain ⟨rfl,rfl⟩ := runStep_ended ran
      rw [seat_last rfl]
      exact .stays (.active retired calm (.stored fitting (fun error => (if_pos error).trans (message error)))) rfl
  | stored fitting message =>
      cases action with
      | storeState =>
          cases ran
          rw [seat_last rfl]
          exact .moves (.settled retired (.inl calm) fitting message (.inl ⟨rfl,rfl⟩)) (.settle fitting)
      | _ => cases ran

theorem run_advances {s next : WorkerThreads R} (stage : Stage s slot) (ran : s.step (.run tid action) = some next) :
    Advances slot s next := by
  cases stage with
  | idle retired _ | starting retired | clearing retired _ _ _ =>
      rw [run_none retired] at ran
      cases ran
  | active retired calm doing =>
      obtain ⟨rfl,ran⟩ := run_last retired rfl ran
      exact active_advances retired calm doing rfl rfl rfl ran
  | settled retired calm fitting message exit =>
      obtain ⟨rfl,ran⟩ := run_last retired rfl ran
      rcases exit with ⟨rfl,held⟩ | ⟨rfl,_⟩
      · cases action with
        | exit =>
            cases ran
            rw [seat_last rfl]
            exact .stays (.settled retired calm fitting message (.inr ⟨rfl,.inl held⟩)) rfl
        | _ => cases ran
      · rw [runStep_exited] at ran
        cases ran

theorem step_advances {s next : WorkerThreads R} (stage : Stage s slot) (ran : s.step action = some next) :
    Advances slot s next := by
  cases action with
  | call c =>
      obtain ⟨ready,rfl⟩ := step_call ran
      exact call_advances stage ready c
  | proceed => exact proceed_advances stage ran
  | run tid action => exact run_advances stage ran

-- What a worker thread's step leaves alone, and the flag's one way up.
structure RunFrame (s next : WorkerThreads R) : Prop where
  main : next.main = s.main
  starts : next.history.starts = s.history.starts
  read : next.history.read = s.history.read
  cancelled : next.history.cancelled = s.history.cancelled
  accepted : next.history.ledger.accepted = s.history.ledger.accepted
  tasks : next.threads.map RunThread.task = s.threads.map RunThread.task
  flag : next.context.cancelRequest = s.context.cancelRequest ∧ next.history.requested = s.history.requested ∨
    next.context.cancelRequest = true ∧ next.history.requested = true

theorem seat_tasks {s : WorkerThreads R} (found : s.threads[tid]? = some ⟨task,phase⟩) (later : Phase) :
    (s.seat tid task later).threads.map RunThread.task = s.threads.map RunThread.task := by
  obtain ⟨inside,same⟩ := List.getElem?_eq_some_iff.mp found
  have there : tid < (s.threads.map RunThread.task).length := by simpa using inside
  have seated : (s.threads.map RunThread.task)[tid] = task := by rw [List.getElem_map,same]
  change (s.threads.set tid ⟨task,later⟩).map RunThread.task = _
  rw [List.map_set]
  exact seated ▸ List.set_getElem_self _

theorem runStep_frame {s next : WorkerThreads R} (found : s.threads[tid]? = some ⟨task,phase⟩)
    (ran : s.runStep tid task phase action = some next) : RunFrame s next := by
  have tasks := seat_tasks found
  unfold WorkerThreads.runStep at ran
  split at ran
  all_goals cases ran
  all_goals
    refine ⟨rfl,rfl,rfl,rfl,rfl,?_,?_⟩
    · first
        | rfl
        | exact tasks _
    · first
        | exact .inl ⟨rfl,rfl⟩
        | exact .inr ⟨rfl,rfl⟩

-- While a thread has not returned the main thread is at most waiting for it.
theorem unexited_calm {s : WorkerThreads R} {tid : Nat} {thread : RunThread R} (stage : Stage s slot)
    (found : s.threads[tid]? = some thread) (unfinished : thread.phase ≠ .exited) :
    ∃ handle, s.main.Calm handle ∨ s.main = .resetting .join := by
  cases stage with
  | idle retired _ | starting retired | clearing retired _ _ _ =>
      exact absurd (retired _ (List.mem_of_getElem? found)) unfinished
  | active _ calm _ => exact ⟨_,.inl calm⟩
  | settled _ calm _ _ _ => exact ⟨_,calm⟩

-- The two threads are a forward simulation of the job cycle.
theorem reached_cycle {s : WorkerThreads R} (path : Reached (WorkerThreads.system R) s) :
    ∃ slot, Stage s slot ∧ Balanced TaskEnd.fits slot s.history.ledger := by
  obtain ⟨⟨slot,ledger⟩,⟨stage,same⟩,moves⟩ :
      ∃ model : TaskSlot R × Ledger R TaskEnd AiWorkerState, (Stage s model.1 ∧ model.2 = s.history.ledger) ∧
        Relation.ReflTransGen (Move TaskEnd.fits) (.free,.empty) model := path.simulated
    (fun s model => Stage s model.1 ∧ model.2 = s.history.ledger) (Move TaskEnd.fits)
    (fun s start => by cases start; exact ⟨fresh_stage,rfl⟩)
    (fun s model action next related ran => by
      obtain ⟨slot,ledger⟩ := model
      obtain ⟨stage,rfl⟩ := related
      obtain ⟨later,stage',advance⟩ := step_advances stage ran
      exact ⟨(later,next.history.ledger),⟨stage',rfl⟩,advance⟩)
  cases same
  exact ⟨slot,stage,moves_balanced moves⟩

end WorkerCycle

end SmartFill
