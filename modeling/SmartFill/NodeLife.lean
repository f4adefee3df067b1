import SmartFill.WorkerSafety

namespace SmartFill.NodeLife
open Transition WorkerCycle WorkerSafety

-- The members of an AISmartFill that have destructors.
inductive Member where
  | currentKey
  | cachedPixels
  | loadedKey
  | session
  | bakingKey
  | worker
  deriving DecidableEq

-- In the order of their declarations; they are destroyed in the reverse one.
def members : List Member := [.currentKey,.cachedPixels,.loadedKey,.session,.bakingKey,.worker]

-- A node with its worker's thread. A task holds session_.get(); the sessions
-- are numbered as they are made. While ~AISmartFill runs, `doomed` has the
-- members still to be destroyed.
structure Life where
  worker : WorkerThreads Nat
  session : Option Nat
  made : Nat
  doomed : Option (List Member)

inductive Action where
  | bake
  | call (c : MainCall Nat)
  | delete
  | member
  | proceed
  | run (tid : Nat) (action : RunAction)

def fresh : Life := ⟨.fresh,none,0,none⟩

def withWorker (s : Life) (w : Option (WorkerThreads Nat)) : Option Life := w.map (fun w => {s with worker := w})

-- The end of start_bake: if (!session_) session_ = std::make_unique, then
-- worker_.start with the pointer.
def bake (s : Life) : Option Life :=
  let session := s.session.getD s.made
  withWorker {s with session := some session,made := if s.session.isSome then s.made else s.made+1}
    (s.worker.step (.call (.start session)))

-- The next member of a node being deleted. ~AiWorker takes more than one step.
def destroyMember (s : Life) : List Member → Option Life
  | [] => none
  | .worker :: rest =>
    match s.worker.main with
    | .destroyed => some {s with doomed := some rest}
    | _ => withWorker s (s.worker.step (.call .destroy))
  | .session :: rest => some {s with session := none,doomed := some rest}
  | _ :: rest => some {s with doomed := some rest}

def step (order : List Member) (s : Life) : Action → Option Life
  | .bake => if s.doomed.isSome then none else bake s
  | .call (.start _) | .call .destroy => none
  | .call c => if s.doomed.isSome then none else withWorker s (s.worker.step (.call c))
  | .delete =>
    match s.doomed,s.worker.main with
    | none,.ready => some {s with doomed := some order.reverse}
    | _,_ => none
  | .member => s.doomed.bind (destroyMember s)
  | .proceed => withWorker s (s.worker.step .proceed)
  | .run tid action => withWorker s (s.worker.step (.run tid action))

def life (order : List Member) : System Life Action where
  initial s := s = fresh
  step := step order

-- Every task under way has its session.
def Held (s : Life) : Prop :=
  ∀ tid session : Nat, s.worker.threads[tid]? = some ⟨session,.body⟩ → s.session = some session

section Worker
variable {R : Type} {w next : WorkerThreads R}

theorem call_accepted {c : MainCall R} (other : ∀ task, c ≠ .start task) :
    (w.call c).history.ledger.accepted = w.history.ledger.accepted := by
  cases c with
  | start task => exact absurd rfl (other task)
  | reset =>
    simp only [WorkerThreads.call]
    split <;> rfl
  | cancel | join | state | errorMessage | progress | statusText | destroy => rfl

theorem start_accepted (task : R) : (w.call (.start task)).history.ledger.accepted = w.history.ledger.accepted ∨
    (w.call (.start task)).history.ledger.accepted = w.history.ledger.accepted ++ [task] := by
  simp only [WorkerThreads.call]
  split
  · exact .inr rfl
  · exact .inl rfl

theorem proceed_accepted (ran : w.proceed = some next) : next.history.ledger.accepted = w.history.ledger.accepted := by
  obtain ⟨state,context,msg,threads,handle,main,history⟩ := w
  cases main with
  | ready | destroyed | terminated => cases ran
  | joining | destroying =>
    cases joined_then ran
    rfl
  | starting task found statement =>
    cases statement with
    | join =>
      cases joined_then ran
      rfl
    | spawn =>
      cases ran
      cases handle <;> rfl
    | clearCancel | setProgress | setStatusText =>
      cases ran
      rfl
  | resetting statement =>
    cases statement with
    | join =>
      cases joined_then ran
      rfl
    | clearError | setProgress | setStatusText | store =>
      cases ran
      rfl

-- Past ~AiWorker nothing runs any more.
theorem destroyed_retired (path : Reached (WorkerThreads.system R) w) (destroyed : w.main = .destroyed) :
    Retired w.threads := by
  obtain ⟨slot,stage,_⟩ := reached_cycle path
  cases stage with
  | idle retired _ => exact retired
  | starting _ | clearing _ _ _ _ => cases destroyed
  | active _ calm _ =>
    cases destroyed
    cases calm
  | settled retired calm _ _ exit =>
    cases destroyed
    rcases calm with calm | calm
    · have calm : _ = none := calm
      rcases exit with ⟨_,held⟩ | ⟨rfl,_⟩
      · rw [calm] at held
        cases held
      · exact retired.append _
    · cases calm

theorem destroyed_stuck (path : Reached (WorkerThreads.system R) w) (destroyed : w.main = .destroyed)
    (action : WorkerAction R) : w.step action = none := by
  cases action with
  | call c => simp only [WorkerThreads.step,destroyed]
  | proceed => simp only [WorkerThreads.step,WorkerThreads.proceed,destroyed]
  | run tid action => exact run_none (destroyed_retired path destroyed) tid action

end Worker

section Safe
variable {s next : Life} {order before after : List Member} {action : WorkerAction Nat} {w : WorkerThreads Nat}

theorem withWorker_some (ran : withWorker s (s.worker.step action) = some next) :
    ∃ w, s.worker.step action = some w ∧ next = {s with worker := w} := by
  obtain ⟨w,moved,rfl⟩ := Option.map_eq_some_iff.mp ran
  exact ⟨w,moved,rfl⟩

theorem member_worker {left : List Member} (ran : destroyMember s left = some next) :
    next.worker = s.worker ∨ ∃ action, s.worker.step action = some next.worker := by
  cases left with
  | nil => cases ran
  | cons m rest =>
    cases m with
    | worker =>
      simp only [destroyMember] at ran
      split at ran
      · cases ran
        exact .inl rfl
      · obtain ⟨w,moved,rfl⟩ := withWorker_some ran
        exact .inr ⟨_,moved⟩
    | session | currentKey | cachedPixels | loadedKey | bakingKey =>
      cases ran
      exact .inl rfl

theorem step_worker {act : Action} (ran : step order s act = some next) :
    next.worker = s.worker ∨ ∃ action, s.worker.step action = some next.worker := by
  cases act with
  | bake =>
    simp only [step] at ran
    split at ran
    · cases ran
    · obtain ⟨w,moved,rfl⟩ := Option.map_eq_some_iff.mp ran
      exact .inr ⟨_,moved⟩
  | call c =>
    cases c with
    | start _ | destroy => cases ran
    | cancel | join | reset | state | errorMessage | progress | statusText =>
      simp only [step] at ran
      split at ran
      · cases ran
      · obtain ⟨w,moved,rfl⟩ := withWorker_some ran
        exact .inr ⟨_,moved⟩
  | delete =>
    simp only [step] at ran
    split at ran
    · cases ran
      exact .inl rfl
    · cases ran
  | member =>
    obtain ⟨left,_,ran⟩ := Option.bind_eq_some_iff.mp ran
    exact member_worker ran
  | proceed | run _ _ =>
    obtain ⟨w,moved,rfl⟩ := withWorker_some ran
    exact .inr ⟨_,moved⟩

theorem reached_worker (path : Reached (life order) s) : Reached (WorkerThreads.system Nat) s.worker := by
  apply Reached.invariant (fun s => Reached (WorkerThreads.system Nat) s.worker) path
  · rintro s rfl
    exact .initial rfl
  · intro s action next path ran
    rcases step_worker ran with same | ⟨a,moved⟩
    · exact same ▸ path
    · exact path.act a trivial moved

-- Until ~AiWorker is over every task there ever was holds the session that is
-- there, which is not destroyed before.
structure Kept (before : List Member) (s : Life) : Prop where
  held : s.worker.main = .destroyed ∨ ∀ session ∈ s.worker.history.ledger.accepted, s.session = some session
  doomed : ∀ left, s.doomed = some left → s.worker.main = .destroyed ∨
    ∃ first, left = first ++ .worker :: before.reverse ∧ .session ∉ first

theorem worker_kept (path : Reached (WorkerThreads.system Nat) s.worker) (kept : Kept before s)
    (moved : s.worker.step action = some w)
    (accepted : w.history.ledger.accepted = s.worker.history.ledger.accepted) : Kept before {s with worker := w} := by
  have living : s.worker.main ≠ .destroyed := by
    intro destroyed
    rw [destroyed_stuck path destroyed] at moved
    cases moved
  refine ⟨.inr ?_,fun left doomed => ?_⟩
  · rw [accepted]
    exact kept.held.resolve_left living
  · exact .inr ((kept.doomed left doomed).resolve_left living)

theorem bake_kept (kept : Kept before s) (undoomed : s.doomed = none) (ran : bake s = some next) : Kept before next := by
  obtain ⟨w,moved,rfl⟩ := Option.map_eq_some_iff.mp ran
  obtain ⟨ready,rfl⟩ := step_call moved
  have held : ∀ session ∈ s.worker.history.ledger.accepted, s.session = some session := by
    refine kept.held.resolve_left ?_
    rw [ready]
    nofun
  refine ⟨.inr ?_,?_⟩
  · have old : ∀ session ∈ s.worker.history.ledger.accepted, some (s.session.getD s.made) = some session := by
      intro session member
      rw [held session member]
      rfl
    rcases start_accepted (s.session.getD s.made) with same | added
    · rw [same]
      exact old
    · rw [added]
      intro session member
      rcases List.mem_append.mp member with was | new
      · exact old session was
      · rw [List.mem_singleton.mp new]
  · intro left doomed
    rw [undoomed] at doomed
    cases doomed

theorem member_kept {left : List Member} (path : Reached (WorkerThreads.system Nat) s.worker) (kept : Kept before s)
    (doomed : s.doomed = some left)
    (ran : destroyMember s left = some next) : Kept before next := by
  have still (rest : List Member) (over_ : s.worker.main = .destroyed) : Kept before {s with doomed := some rest} :=
    ⟨.inl over_,fun _ _ => .inl over_⟩
  have popped (m : Member) (rest : List Member) (is : left = m :: rest) (plain : m ≠ .worker) :
      Kept before {s with doomed := some rest} := by
    rcases kept.doomed left doomed with over_ | ⟨first,split,unharmed⟩
    · exact still rest over_
    · refine ⟨kept.held,?_⟩
      rintro _ ⟨⟩
      rw [is] at split
      cases first with
      | nil =>
        cases split
        exact absurd rfl plain
      | cons m' first =>
        cases split
        exact .inr ⟨first,rfl,fun member => unharmed (List.mem_cons_of_mem _ member)⟩
  cases left with
  | nil => cases ran
  | cons m rest =>
    cases m with
    | worker =>
      simp only [destroyMember] at ran
      split at ran
      · rename_i over_
        cases ran
        exact still rest over_
      · obtain ⟨w,moved,rfl⟩ := withWorker_some ran
        obtain ⟨_,rfl⟩ := step_call moved
        exact worker_kept path kept moved (call_accepted nofun)
    | session =>
      cases ran
      have over_ : s.worker.main = .destroyed := by
        rcases kept.doomed _ doomed with over_ | ⟨first,split,unharmed⟩
        · exact over_
        · cases first with
          | nil => cases split
          | cons m' first =>
            cases split
            exact absurd List.mem_cons_self unharmed
      exact ⟨.inl over_,fun _ _ => .inl over_⟩
    | currentKey | cachedPixels | loadedKey | bakingKey =>
      cases ran
      exact popped _ rest rfl nofun

theorem step_kept (declared : order = before ++ .worker :: after) (first : .session ∉ after) {act : Action}
    (path : Reached (WorkerThreads.system Nat) s.worker) (kept : Kept before s) (ran : step order s act = some next) :
    Kept before next := by
  cases act with
  | bake =>
    simp only [step] at ran
    split at ran
    · cases ran
    · rename_i undoomed
      exact bake_kept kept (by simpa using undoomed) ran
  | call c =>
    have quiet (other : ∀ task, c ≠ .start task) (ran : withWorker s (s.worker.step (.call c)) = some next) :
        Kept before next := by
      obtain ⟨w,moved,rfl⟩ := withWorker_some ran
      obtain ⟨_,rfl⟩ := step_call moved
      exact worker_kept path kept moved (call_accepted other)
    cases c with
    | start _ | destroy => cases ran
    | cancel | join | reset | state | errorMessage | progress | statusText =>
      simp only [step] at ran
      split at ran
      · cases ran
      · exact quiet nofun ran
  | delete =>
    simp only [step] at ran
    split at ran
    · cases ran
      refine ⟨kept.held,?_⟩
      rintro _ ⟨⟩
      refine .inr ⟨after.reverse,?_,by simpa using first⟩
      rw [declared]
      simp
    · cases ran
  | member =>
    obtain ⟨left,doomed,ran⟩ := Option.bind_eq_some_iff.mp ran
    exact member_kept path kept doomed ran
  | proceed =>
    obtain ⟨w,moved,rfl⟩ := withWorker_some ran
    exact worker_kept path kept moved (proceed_accepted moved)
  | run tid action =>
    obtain ⟨w,moved,rfl⟩ := withWorker_some ran
    obtain ⟨task,phase,found,ran⟩ := step_run moved
    exact worker_kept path kept moved (runStep_frame found ran).accepted

theorem kept_held (path : Reached (WorkerThreads.system Nat) s.worker) (kept : Kept before s) : Held s := by
  intro tid session found
  rcases kept.held with destroyed | held
  · cases destroyed_retired path destroyed _ (List.mem_of_getElem? found)
  · apply held
    rw [(worker_safe path).carried]
    exact List.mem_append_left _ (List.mem_map_of_mem (List.mem_of_getElem? found))

theorem reached_kept (declared : order = before ++ .worker :: after) (first : .session ∉ after)
    (path : Reached (life order) s) : Kept before s := by
  apply Guarded.invariant (fun s => Reached (WorkerThreads.system Nat) s.worker) (Kept before) path (fun _ => reached_worker)
  · rintro s rfl
    exact ⟨.inr (by simp [fresh,WorkerThreads.fresh,JobCycle.Ledger.empty]),nofun⟩
  · intro s action next path kept _ ran
    exact step_kept declared first path kept ran

end Safe

section Order
variable {s : Life} {order before after : List Member}

theorem declared_first (once : (before ++ .worker :: after).Nodup) :
    (before ++ .worker :: after).idxOf .session < (before ++ .worker :: after).idxOf .worker ↔ Member.session ∈ before := by
  have apart : Member.worker ∉ before :=
    fun early => (List.nodup_append.mp once).2.2 _ early _ List.mem_cons_self rfl
  rw [List.idxOf_append_of_notMem apart,List.idxOf_cons_self]
  by_cases member : Member.session ∈ before
  · rw [List.idxOf_append_of_mem member]
    have inside := List.idxOf_lt_length_of_mem member
    simp only [member,iff_true]
    omega
  · rw [List.idxOf_append_of_notMem member]
    simp only [member,iff_false]
    omega

-- A node in the middle of a bake.
def cooking : Life := ⟨⟨.running,⟨F32.zero,false,ascii "Starting"⟩,[],[⟨0,.body⟩],some 0,.ready,
  ⟨(JobCycle.Ledger.empty.accept 0).begin 0,[(.idle,true)],false,false,none⟩⟩,some 0,1,none⟩

theorem cooking_reached : Reached (life order) cooking :=
  Reached.run (.initial rfl) [.bake,.proceed,.proceed,.proceed,.proceed,.proceed,.run 0 .enter] rfl

theorem plain_destroyed {first rest : List Member} (plain : .session ∉ first ∧ .worker ∉ first)
    (path : Reached (life order) {s with doomed := some (first ++ rest)}) :
    Reached (life order) {s with doomed := some rest} := by
  induction first with
  | nil => exact path
  | cons m first ih =>
    have unlike : m ≠ .session ∧ m ≠ .worker :=
      ⟨fun same => plain.1 (same ▸ List.mem_cons_self),fun same => plain.2 (same ▸ List.mem_cons_self)⟩
    refine ih ⟨fun member => plain.1 (List.mem_cons_of_mem _ member),fun member => plain.2 (List.mem_cons_of_mem _ member)⟩ ?_
    refine path.act .member trivial ?_
    cases m with
    | session => exact absurd rfl unlike.1
    | worker => exact absurd rfl unlike.2
    | currentKey | cachedPixels | loadedKey | bakingKey => rfl

-- A session declared after the worker goes while the task still uses it.
theorem dangles (once : (before ++ .worker :: after).Nodup) (late : .session ∈ after) :
    ¬ ∀ s, Reached (life (before ++ .worker :: after)) s → Held s := by
  intro claim
  obtain ⟨first,rest,rfl⟩ := List.append_of_mem late
  have parts := List.nodup_append.mp once
  have doomed : Reached (life (before ++ .worker :: (first ++ .session :: rest)))
      {cooking with doomed := some (rest.reverse ++ .session :: (first.reverse ++ .worker :: before.reverse))} := by
    refine cooking_reached.act .delete trivial ?_
    show some {cooking with doomed := some (before ++ Member.worker :: (first ++ Member.session :: rest)).reverse} = _
    simp
  have distinct := (List.nodup_cons.mp parts.2.1).1
  have later := (List.nodup_append.mp (List.nodup_cons.mp parts.2.1).2).2.1
  have next := plain_destroyed ⟨by simpa using (List.nodup_cons.mp later).1,
    fun member => distinct (by simp [List.mem_reverse.mp member])⟩ doomed
  have gone := claim _ (next.act .member trivial rfl)
  cases gone 0 0 rfl

end Order

section Ends
variable {s : Life} {order : List Member} {tid task : Nat} {phase : Phase}

-- The thread comes to its end, whatever it is at, without the main thread.
def Exits (order : List Member) (s : Life) (tid : Nat) : Prop :=
  ∃ w, Leads (life order) s {s with worker := w} ∧ w.main = s.worker.main ∧ w.handle = s.worker.handle ∧
    ∃ task, w.threads[tid]? = some ⟨task,.exited⟩

theorem exits_next {w : WorkerThreads Nat} {action : RunAction} (ran : s.worker.step (.run tid action) = some w)
    (main : w.main = s.worker.main) (handle : w.handle = s.worker.handle) (exits : Exits order {s with worker := w} tid) :
    Exits order s tid := by
  obtain ⟨later,path,main',handle',gone⟩ := exits
  refine ⟨later,.head ⟨.run tid action,?_⟩ path,main'.trans main,handle'.trans handle,gone⟩
  show withWorker s (s.worker.step (.run tid action)) = _
  rw [ran]
  rfl

def rank : Phase → Nat
  | .created => 6
  | .body => 5
  | .returned => 4
  | .ended _ _ => 3
  | .stored _ => 2
  | .published => 1
  | .exited => 0

structure Onward (w : WorkerThreads Nat) (tid : Nat) (phase : Phase) (next : WorkerThreads Nat) : Prop where
  main : next.main = w.main
  handle : next.handle = w.handle
  moved : ∃ task later, next.threads[tid]? = some ⟨task,later⟩ ∧ rank later < rank phase

theorem runs_onward {w : WorkerThreads Nat} (found : w.threads[tid]? = some ⟨task,phase⟩) (unfinished : phase ≠ .exited) :
    ∃ action next, w.step (.run tid action) = some next ∧ Onward w tid phase next := by
  have there (later : Phase) : (w.threads.set tid ⟨task,later⟩)[tid]? = some ⟨task,later⟩ := by
    rw [List.getElem?_set_self (List.getElem?_eq_some_iff.mp found).1]
  have ran (action : RunAction) : w.step (.run tid action) = w.runStep tid task phase action := by
    simp only [WorkerThreads.step,found]
  cases phase with
  | created => exact ⟨.enter,_,ran _,rfl,rfl,task,.body,there _,by decide⟩
  | body => exact ⟨.leave .returned,_,ran _,rfl,rfl,task,.returned,there _,by decide⟩
  | returned => exact ⟨.shouldCancel,_,ran _,rfl,rfl,task,.ended _ [],there _,Nat.lt_succ_self 3⟩
  | ended final err =>
    cases final with
    | error => exact ⟨.storeError,_,ran _,rfl,rfl,task,.stored .error,there _,Nat.lt_succ_self 2⟩
    | idle | running | done | cancelled =>
      exact ⟨.storeError,_,ran _,rfl,rfl,task,.stored _,there _,Nat.lt_succ_self 2⟩
  | stored final => exact ⟨.storeState,_,ran _,rfl,rfl,task,.published,there _,Nat.lt_succ_self 1⟩
  | published => exact ⟨.exit,_,ran _,rfl,rfl,task,.exited,there _,by decide⟩
  | exited => exact absurd rfl unfinished

theorem thread_exits (found : s.worker.threads[tid]? = some ⟨task,phase⟩) : Exits order s tid := by
  induction bound : rank phase using Nat.strong_induction_on generalizing s task phase with
  | _ n ih =>
    by_cases exited : phase = .exited
    · subst exited
      exact ⟨s.worker,.refl,rfl,rfl,task,found⟩
    · obtain ⟨action,next,ran,onward⟩ := runs_onward found exited
      obtain ⟨task',later,there,fewer⟩ := onward.moved
      exact exits_next ran onward.main onward.handle (ih _ (bound ▸ fewer) there rfl)

-- While the node is being deleted its main thread is in no other call.
def Deleting (s : Life) : Prop :=
  s.doomed.isSome → s.worker.main = .ready ∨ s.worker.main = .destroying ∨ s.worker.main = .destroyed

theorem member_deleting {next : Life} {left : List Member} (deleting : Deleting s) (doomed : s.doomed = some left)
    (ran : destroyMember s left = some next) : Deleting next := by
  have now := deleting (Option.isSome_of_eq_some doomed)
  cases left with
  | nil => cases ran
  | cons m rest =>
    cases m with
    | worker =>
      simp only [destroyMember] at ran
      split at ran
      · cases ran
        exact fun _ => now
      · obtain ⟨w,moved,rfl⟩ := withWorker_some ran
        obtain ⟨_,rfl⟩ := step_call moved
        exact fun _ => .inr (.inl rfl)
    | session | currentKey | cachedPixels | loadedKey | bakingKey =>
      cases ran
      exact fun _ => now

theorem reached_deleting (path : Reached (life order) s) : Deleting s := by
  apply Reached.invariant Deleting path
  · rintro s rfl
    exact nofun
  · intro s action next deleting ran
    cases action with
    | bake =>
      simp only [life,step] at ran
      split at ran
      · cases ran
      · rename_i undoomed
        obtain ⟨w,moved,rfl⟩ := Option.map_eq_some_iff.mp ran
        exact fun doomed => absurd doomed undoomed
    | call c =>
      have undoomed (undoomed : ¬ s.doomed.isSome) (ran : withWorker s (s.worker.step (.call c)) = some next) :
          Deleting next := by
        obtain ⟨w,moved,rfl⟩ := withWorker_some ran
        exact fun doomed => absurd doomed undoomed
      cases c with
      | start _ | destroy => cases ran
      | cancel | join | reset | state | errorMessage | progress | statusText =>
        simp only [life,step] at ran
        split at ran
        · cases ran
        · rename_i open_
          exact undoomed open_ ran
    | delete =>
      simp only [life,step] at ran
      split at ran
      · rename_i ready
        cases ran
        exact fun _ => .inl ready
      · cases ran
    | member =>
      obtain ⟨left,doomed,ran⟩ := Option.bind_eq_some_iff.mp ran
      exact member_deleting deleting doomed ran
    | proceed =>
      obtain ⟨w,moved,rfl⟩ := withWorker_some ran
      intro doomed
      rcases deleting doomed with main | main | main
      · simp only [WorkerThreads.step,WorkerThreads.proceed,main] at moved
        cases moved
      · simp only [WorkerThreads.step,WorkerThreads.proceed,main] at moved
        cases joined_then moved
        exact .inr (.inr rfl)
      · simp only [WorkerThreads.step,WorkerThreads.proceed,main] at moved
        cases moved
    | run tid action =>
      obtain ⟨w,moved,rfl⟩ := withWorker_some ran
      obtain ⟨task,phase,found,ran⟩ := step_run moved
      intro doomed
      rw [(runStep_frame found ran).main]
      exact deleting doomed

theorem handle_thread {w : WorkerThreads Nat} (path : Reached (WorkerThreads.system Nat) w) (held : w.handle = some tid) :
    ∃ task phase, w.threads[tid]? = some ⟨task,phase⟩ := by
  obtain ⟨slot,stage,_⟩ := reached_cycle path
  cases stage with
  | idle _ _ | starting _ | clearing _ _ _ _ => cases held
  | active _ _ _ =>
    cases held
    exact ⟨_,_,List.getElem?_concat_length⟩
  | settled _ _ _ _ exit =>
    rcases exit with ⟨_,same⟩ | ⟨_,same | same⟩
    all_goals
      cases same.symm.trans held
      try exact ⟨_,_,List.getElem?_concat_length⟩

-- ~AiWorker returns once the thread has.
theorem join_ends (path : Reached (life order) s) (destroying : s.worker.main = .destroying) :
    ∃ w, Leads (life order) s {s with worker := w} ∧ w.main = .destroyed := by
  have proceeds {w : WorkerThreads Nat} (main : w.main = .destroying) (joined : w.joined.isSome) :
      ∃ later, (life order).step {s with worker := w} .proceed = some {s with worker := later} ∧ later.main = .destroyed := by
    obtain ⟨free,joined⟩ := Option.isSome_iff_exists.mp joined
    refine ⟨{free with main := .destroyed},?_,rfl⟩
    simp only [life,step,withWorker,WorkerThreads.step,WorkerThreads.proceed,main,joined,Option.map_some]
  cases held : s.worker.handle with
  | none =>
    obtain ⟨later,ran,over_⟩ := proceeds destroying (by simp only [WorkerThreads.joined,held,Option.isSome_some])
    exact ⟨later,.single ⟨.proceed,ran⟩,over_⟩
  | some tid =>
    obtain ⟨task,phase,found⟩ := handle_thread (reached_worker path) held
    obtain ⟨w,leads,main,handle,task',gone⟩ := thread_exits found
    have joined : w.joined.isSome := by simp only [WorkerThreads.joined,handle.trans held,gone,Option.isSome_some]
    obtain ⟨later,ran,over_⟩ := proceeds (main.trans destroying) joined
    exact ⟨later,leads.tail ⟨.proceed,ran⟩,over_⟩

theorem reached_leads {later : Life} (path : Reached (life order) s) (leads : Leads (life order) s later) :
    Reached (life order) later :=
  leads.keeps (Reached (life order)) path (fun _ action _ path ran => path.act action trivial ran)

theorem delete_ends {left : List Member} (path : Reached (life order) s) (doomed : s.doomed = some left) :
    ∃ later, Leads (life order) s later ∧ later.doomed = some [] := by
  induction left generalizing s with
  | nil => exact ⟨s,.refl,doomed⟩
  | cons m rest ih =>
    have member {next : Life} (ran : destroyMember s (m :: rest) = some next) : (life order).step s .member = some next := by
      show s.doomed.bind (destroyMember s) = some next
      rw [doomed]
      exact ran
    have popped {s : Life} (path : Reached (life order) s)
        (ran : (life order).step s .member = some {s with doomed := some rest}) :
        ∃ later, Leads (life order) s later ∧ later.doomed = some [] := by
      obtain ⟨later,leads,over_⟩ := ih (path.act .member trivial ran) rfl
      exact ⟨later,leads.head ⟨.member,ran⟩,over_⟩
    cases m with
    | worker =>
      have last {s : Life} (path : Reached (life order) s) (doomed : s.doomed = some (.worker :: rest))
          (main : s.worker.main = .destroyed) : ∃ later, Leads (life order) s later ∧ later.doomed = some [] := by
        refine popped path ?_
        show s.doomed.bind (destroyMember s) = _
        rw [doomed,Option.bind_some]
        simp only [destroyMember,main]
      have joined {s : Life} (path : Reached (life order) s) (doomed : s.doomed = some (.worker :: rest))
          (main : s.worker.main = .destroying) : ∃ later, Leads (life order) s later ∧ later.doomed = some [] := by
        obtain ⟨w,leads,main⟩ := join_ends path main
        obtain ⟨later,leads',over_⟩ := last (reached_leads path leads) doomed main
        exact ⟨later,leads.trans leads',over_⟩
      rcases reached_deleting path (Option.isSome_of_eq_some doomed) with main | main | main
      · have ran : (life order).step s .member = some {s with worker := s.worker.call .destroy} := by
          apply member
          simp only [destroyMember,main,WorkerThreads.step,withWorker,Option.map_some]
        obtain ⟨later,leads,over_⟩ := joined (path.act .member trivial ran) doomed rfl
        exact ⟨later,leads.head ⟨.member,ran⟩,over_⟩
      · exact joined path doomed main
      · exact last path doomed main
    | session =>
      have ran := member rfl
      obtain ⟨later,leads,over_⟩ := ih (path.act .member trivial ran) rfl
      exact ⟨later,leads.head ⟨.member,ran⟩,over_⟩
    | currentKey | cachedPixels | loadedKey | bakingKey => exact popped path (member rfl)

-- No task outlives the session it uses, whatever the node's worker is at when
-- the node is deleted, exactly because session_ is declared before worker_;
-- and the deletion always comes to its end.
theorem node_deletion (once : order.Nodup) (worker : .worker ∈ order) (session : .session ∈ order) :
    ((∀ s, Reached (life order) s → Held s) ↔ order.idxOf .session < order.idxOf .worker) ∧
    ∀ s, Reached (life order) s → s.doomed.isSome → ∃ later, Leads (life order) s later ∧ later.doomed = some [] := by
  constructor
  · obtain ⟨before,after,rfl⟩ := List.append_of_mem worker
    rw [declared_first once]
    constructor
    · intro safe
      by_contra late
      have after_ : Member.session ∈ after := by simpa [late] using session
      exact dangles once after_ safe
    · intro early s path
      have first : Member.session ∉ after := fun late =>
        (List.nodup_append.mp once).2.2 _ early _ (List.mem_cons_of_mem _ late) rfl
      exact kept_held (reached_worker path) (reached_kept rfl first path)
  · intro s path doomed
    obtain ⟨left,doomed⟩ := Option.isSome_iff_exists.mp doomed
    exact delete_ends path doomed

-- In the order of the source, and in the reverse one.
theorem node_deletion_members : (∀ s, Reached (life members) s → Held s) ∧
    ¬ ∀ s, Reached (life members.reverse) s → Held s := by
  have declared := (node_deletion (by decide : members.Nodup) (by decide) (by decide)).1
  have reversed := (node_deletion (by decide : members.reverse.Nodup) (by decide) (by decide)).1
  constructor
  · exact declared.mpr (by decide)
  · intro safe
    exact absurd (reversed.mp safe) (by decide)

end Ends

end SmartFill.NodeLife
