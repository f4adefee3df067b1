import SmartFill.AISmartFillRuns
import SmartFill.AIGenerateRuns

namespace SmartFill.Delivery
open Transition

-- A pending key is that of the task the worker runs, or ran and has not been
-- asked about.
def Delivers {T : Type} {extension : Bytes} (rt : Runtime T extension) : Prop :=
  rt.bakingKey ≠ [] → rt.worker.state ≠ .idle →
    ∃ run, rt.worker.thread.run? = some run ∧ run.job.key = rt.bakingKey ∧
      ∃ dir, run.job.path = cachePath extension dir rt.bakingKey

def FillAccepts (host : AISmartFill.Host) (s : AISmartFill.State) : Prop :=
  ∀ validated after job, AISmartFill.prepareBake host s.disk validated s.node = .ready after job →
    (after.rt.worker.start ⟨job,AISmartFill.taskOps,none⟩).2 = true

def GenerateAccepts (host : AIGenerate.Host) (s : AIGenerate.State) (chance : AIGenerate.Chance) : Prop :=
  ∀ after job made, AIGenerate.prepareBake host s.disk chance s.node = (.ready after job,made) →
    (after.rt.worker.start ⟨job,AIGenerate.taskOps,none⟩).2 = true

-- AIGenerate does not reset a finished worker itself: a press that gets as far
-- as worker_.start must find its last bake polled.
def PolledFirst (host : AIGenerate.Host) (s : AIGenerate.State) : AIGenerate.Action → Prop
  | .bake chance => AIGenerate.Launches host s.disk chance s.node → s.node.rt.worker.state = .idle
  | _ => True

theorem delivers_of_owned {T : Type} {extension : Bytes} {rt : Runtime T extension} (backend : Backend T)
    (owned : rt.Owned)
    (placed : rt.worker.Carries backend (fun job => ∃ dir, job.path = cachePath extension dir job.key)) :
    Delivers rt := by
  intro named busy
  obtain ⟨run,found⟩ := AiWorker.run_of_busy owned.1 busy
  have key := owned.2 named run found
  obtain ⟨dir,path⟩ := placed.job run found
  exact ⟨run,found,key,dir,by rw [path,key]⟩

section Fill
open AISmartFill
variable {host : AISmartFill.Host} {s : AISmartFill.State}

theorem fill_accepts : FillAccepts host s := by
  intro validated after job ready
  exact (AiWorker.start_accepts _ _).mpr (ready_idle ready)

theorem fill_delivers (path : Reached (AISmartFill.system host) s) : Delivers s.node.rt := by
  refine delivers_of_owned (AISmartFill.backend host) (reached_owned path) ?_
  refine (guarded_logged path ?_).carries
  intro s validated after job _ ready
  obtain ⟨source,mask,passes,rfl⟩ := (prepareBake_ready ready).press
  exact ⟨_,resultPath_cachePath (cacheKey_nonempty _)⟩

end Fill

section Generate
open AIGenerate
variable {host : AIGenerate.Host} {s next : AIGenerate.State} {action : AIGenerate.Action} {chance : AIGenerate.Chance}

theorem generate_accepts_iff (launches : Launches host s.disk chance s.node) :
    GenerateAccepts host s chance ↔ s.node.rt.worker.state = .idle := by
  obtain ⟨images,_,outcome⟩ := prepareBake_launches launches
  constructor
  · intro accepts
    have taken : ((pressNode chance s.node).rt.worker.start _).2 = true := accepts _ _ _ outcome
    exact (AiWorker.start_accepts _ _).mp taken
  · intro idle after job made ready
    cases outcome.symm.trans ready
    exact (AiWorker.start_accepts s.node.rt.worker _).mpr idle

theorem generate_owned_step (owned : s.node.rt.Owned) (permitted : PolledFirst host s action)
    (ran : AIGenerate.step host s action = some next) : next.node.rt.Owned := by
  cases action with
  | work w =>
    obtain ⟨worker,disk,wrote,worked,rfl⟩ := step_work ran
    exact Runtime.owned_work owned worked
  | validate thrown =>
    cases ran
    exact validate_owned owned
  | bake chance =>
    cases ran
    exact startBake_owned owned permitted
  | clearCache refused =>
    cases ran
    exact Runtime.owned_same owned (clearCacheOnDisk_same refused)
  | edit _ | connect _ _ | files _ | cancel =>
    cases ran
    exact owned

theorem generate_delivers (path : Guarded (AIGenerate.system host) (PolledFirst host) s) : Delivers s.node.rt := by
  refine delivers_of_owned host.backend ?_ ?_
  · refine Guarded.keeps (fun s => s.node.rt.Owned) path ?_ ?_
    · intro s start
      rcases start with ⟨disk,rfl⟩
      exact Runtime.owned_fresh _
    · intro s action next owned permitted ran
      exact generate_owned_step owned permitted ran
  · refine (guarded_logged path ?_).carries
    intro s chance after job made _ ready
    obtain ⟨_,_,_,images,_,rfl⟩ := prepareBake_ready ready
    exact ⟨_,rfl⟩

end Generate

-- No bake is lost: always in AISmartFill, in AIGenerate as long as every press
-- that starts one finds the last one polled. A press on an unpolled worker is
-- dropped without a word.
theorem bakes_delivered (fillHost : AISmartFill.Host) (host : AIGenerate.Host) :
    (∀ s, Reached (AISmartFill.system fillHost) s → FillAccepts fillHost s ∧ Delivers s.node.rt) ∧
    (∀ s chance, Reached (AIGenerate.system host) s → AIGenerate.Launches host s.disk chance s.node →
      (GenerateAccepts host s chance ↔ PolledFirst host s (.bake chance))) ∧
    (∀ s, Guarded (AIGenerate.system host) (PolledFirst host) s → Delivers s.node.rt) := by
  refine ⟨?_,?_,?_⟩
  · intro s path
    exact ⟨fill_accepts,fill_delivers path⟩
  · intro s chance _ launches
    rw [generate_accepts_iff launches]
    exact ⟨fun idle _ => idle,fun permitted => permitted launches⟩
  · intro s path
    exact generate_delivers path

theorem bakes_delivered_running :
    (∃ s : AISmartFill.State, s.node.rt.bakingKey ≠ [] ∧ s.node.rt.worker.state = .running ∧ Delivers s.node.rt) ∧
    (∃ s : AIGenerate.State, s.node.rt.bakingKey ≠ [] ∧ s.node.rt.worker.state = .running ∧ Delivers s.node.rt) ∧
    GenerateAccepts AIGenerate.sdHost AIGenerate.sdStart AIGenerate.sdChance := by
  have fill : Reached (AISmartFill.system AISmartFill.blackHost) AISmartFill.blackStart :=
    AISmartFill.blackNode_reached (fun _ => trivial) (fun _ _ => trivial)
  obtain ⟨node,err,started,filling⟩ := AISmartFill.blackStart_works fill trivial
  have generate : Guarded (AIGenerate.system AIGenerate.sdHost) (PolledFirst AIGenerate.sdHost) AIGenerate.sdStart :=
    AIGenerate.sdStart_reached (fun _ _ => trivial)
  obtain ⟨images,generating⟩ := AIGenerate.sdStart_works generate (fun _ => rfl)
  refine ⟨⟨_,?_,rfl,((bakes_delivered _ AIGenerate.sdHost).1 _ filling).2⟩,
    ⟨_,?_,rfl,(bakes_delivered AISmartFill.blackHost _).2.2 _ generating⟩,?_⟩
  · exact started.bakingKey.trans_ne (AISmartFill.pressKey_nonempty _ _)
  · rw [AIGenerate.working_bakingKey]
    exact AIGenerate.launched_bakingKey images
  · exact ((bakes_delivered AISmartFill.blackHost _).2.1 _ _ generate.reached AIGenerate.sdStart_launches).mpr
      (fun _ => rfl)

-- A bake that has failed and was not polled: the next press sets its key and
-- "Cooking 0%", and its task is dropped.
theorem bake_dropped_unpolled : ¬
    ((∀ host s, Reached (AISmartFill.system host) s → FillAccepts host s ∧ Delivers s.node.rt) ∧
     (∀ host s chance, Reached (AIGenerate.system host) s → GenerateAccepts host s chance ∧ Delivers s.node.rt)) := by
  intro both
  rcases both with ⟨_,claim⟩
  have start : Reached (AIGenerate.system AIGenerate.sdHost) AIGenerate.sdStart :=
    AIGenerate.sdStart_reached (fun _ _ => trivial)
  obtain ⟨images,generating⟩ := AIGenerate.sdStart_works start trivial
  have failed := AIGenerate.bake_fails (fun _ _ => trivial) generating (ascii "Model load failed")
  have accepts := (claim _ _ AIGenerate.sdChance failed).1
  rw [generate_accepts_iff] at accepts
  · cases accepts
  · exact AIGenerate.sdNode_launches (show ascii "x" ≠ [] by decide) (by simp [AIGenerate.setWorker]) rfl ⟨rfl,rfl⟩

-- menu.py calls forceValidate again on a node whose worker is running or has
-- ended unnoticed.
def Announces {T : Type} {extension : Bytes} (rt : Runtime T extension) : Prop :=
  rt.worker.state ≠ .idle → MenuPoll.isActive rt.statusText = true

def FillKeepsText (s : AISmartFill.State) : AISmartFill.Action → Prop
  | .bake _ => s.node.rt.worker.state ≠ .running
  | .clearCache _ => s.node.rt.worker.state = .idle
  | _ => True

def GenerateKeepsText (host : AIGenerate.Host) (s : AIGenerate.State) : AIGenerate.Action → Prop
  | .bake chance => s.node.rt.worker.state = .idle ∨ AIGenerate.Launches host s.disk chance s.node
  | .clearCache _ => s.node.rt.worker.state = .idle ∨ (AIGenerate.nodePaths host s.disk s.node).cacheDir = []
  | _ => True

section FillText
open AISmartFill
variable {host : AISmartFill.Host} {s next : AISmartFill.State} {action : AISmartFill.Action}

theorem fill_announced_step (announced : s.node.rt.Announced) (permitted : FillKeepsText s action)
    (ran : AISmartFill.step host s action = some next) : next.node.rt.Announced := by
  cases action with
  | work w =>
    obtain ⟨worker,disk,wrote,worked,rfl⟩ := step_work ran
    exact Runtime.announced_work announced worked
  | validate thrown =>
    cases ran
    exact validate_announced announced
  | bake validated =>
    cases ran
    exact startBake_announced announced permitted
  | bakeThrown validated stop =>
    obtain ⟨after,thrown,rfl⟩ := step_thrown ran
    obtain ⟨coherent,idle⟩ := thrownBake_idle announced.1 thrown
    exact Runtime.announced_idle coherent idle
  | clearCache refused =>
    cases ran
    exact Runtime.announced_unheard announced permitted (clearCacheDir_same refused)
  | edit _ | connect _ _ | files _ | cancel =>
    cases ran
    exact announced

theorem fill_announces (path : Guarded (AISmartFill.system host) FillKeepsText s) : s.node.rt.Announced := by
  refine Guarded.keeps (fun s => s.node.rt.Announced) path ?_ ?_
  · intro s start
    rcases start with ⟨disk,rfl⟩
    exact Runtime.announced_fresh _
  · intro s action next announced permitted ran
    exact fill_announced_step announced permitted ran

end FillText

section GenerateText
open AIGenerate
variable {host : AIGenerate.Host} {s next : AIGenerate.State} {action : AIGenerate.Action}

theorem generate_announced_step (announced : s.node.rt.Announced) (permitted : GenerateKeepsText host s action)
    (ran : AIGenerate.step host s action = some next) : next.node.rt.Announced := by
  cases action with
  | work w =>
    obtain ⟨worker,disk,wrote,worked,rfl⟩ := step_work ran
    exact Runtime.announced_work announced worked
  | validate thrown =>
    cases ran
    exact validate_announced announced
  | bake chance =>
    cases ran
    exact startBake_announced announced permitted
  | clearCache refused =>
    rcases permitted with idle | nowhere
    · cases ran
      exact Runtime.announced_unheard announced idle (clearCacheOnDisk_same refused)
    · simp only [AIGenerate.step,clearCacheOnDisk_nowhere refused nowhere] at ran
      cases ran
      exact announced
  | edit _ | connect _ _ | files _ | cancel =>
    cases ran
    exact announced

theorem generate_announces (path : Guarded (AIGenerate.system host) (GenerateKeepsText host) s) :
    s.node.rt.Announced := by
  refine Guarded.keeps (fun s => s.node.rt.Announced) path ?_ ?_
  · intro s start
    rcases start with ⟨disk,rfl⟩
    exact Runtime.announced_fresh _
  · intro s action next announced permitted ran
    exact generate_announced_step announced permitted ran

end GenerateText

theorem completions_announced (fillHost : AISmartFill.Host) (host : AIGenerate.Host) :
    (∀ s, Guarded (AISmartFill.system fillHost) FillKeepsText s → Announces s.node.rt) ∧
    (∀ s, Guarded (AIGenerate.system host) (GenerateKeepsText host) s → Announces s.node.rt) :=
  ⟨fun _ path => (fill_announces path).2,fun _ path => (generate_announces path).2⟩

theorem completions_announced_running :
    (∃ s : AISmartFill.State, s.node.rt.worker.state = .running ∧ Announces s.node.rt) ∧
    (∃ s : AIGenerate.State, s.node.rt.worker.state = .running ∧ Announces s.node.rt) := by
  have fill : Guarded (AISmartFill.system AISmartFill.blackHost) FillKeepsText AISmartFill.blackStart :=
    AISmartFill.blackNode_reached (fun _ => trivial) (fun _ _ => trivial)
  obtain ⟨node,err,_,filling⟩ := AISmartFill.blackStart_works fill (show _ ≠ _ by decide)
  have generate : Guarded (AIGenerate.system AIGenerate.sdHost) (GenerateKeepsText AIGenerate.sdHost) AIGenerate.sdStart :=
    AIGenerate.sdStart_reached (fun _ _ => trivial)
  obtain ⟨images,generating⟩ := AIGenerate.sdStart_works generate (.inl rfl)
  exact ⟨⟨_,rfl,(completions_announced _ AIGenerate.sdHost).1 _ filling⟩,
    ⟨_,rfl,(completions_announced AISmartFill.blackHost _).2 _ generating⟩⟩

-- Pressing Bake again while a bake runs leaves "Already cooking".
theorem completion_unheard : ¬
    ((∀ host s, Reached (AISmartFill.system host) s → Announces s.node.rt) ∧
     (∀ host s, Reached (AIGenerate.system host) s → Announces s.node.rt)) := by
  intro both
  rcases both with ⟨claim,_⟩
  have start : Reached (AISmartFill.system AISmartFill.blackHost) AISmartFill.blackStart :=
    AISmartFill.blackNode_reached (fun _ => trivial) (fun _ _ => trivial)
  obtain ⟨node,err,_,running⟩ := AISmartFill.blackStart_works start trivial
  have announced := claim _ _ (AISmartFill.press_running none running trivial rfl)
    (show AiWorkerState.running ≠ .idle by decide)
  exact absurd (show MenuPoll.isActive (ascii "Already cooking") = true from announced) (by decide)

end SmartFill.Delivery
