import SmartFill.AIGenerate
import SmartFill.Lib.Transition

open SmartFill.Runtime

namespace SmartFill.AIGenerate
open Transition

structure State where
  node : Node
  disk : Files
  bakes : List (Written SdJob)

inductive Action where
  | edit (knobs : Knobs)
  | connect (source control : Option Input)
  | files (disk : Files)
  | validate (thrown : Option Stop)
  | bake (chance : Chance)
  | clearCache (refused : Path → Bool)
  | cancel
  | work (step : WorkStep)

def step (host : Host) (s : State) : Action → Option State
  | .edit knobs => some {s with node := {s.node with knobs := knobs}}
  | .connect source control => some {s with node := {s.node with source := source,control := control}}
  | .files disk => some {s with disk := disk}
  | .validate thrown => some {s with node := validate host s.disk thrown s.node}
  | .bake chance =>
    let (node,disk) := startBake host s.disk chance s.node
    some {s with node := node,disk := disk}
  | .clearCache refused =>
    let (node,disk) := clearCacheOnDisk host refused s.node s.disk
    some {s with node := node,disk := disk}
  | .cancel => some {s with node := setWorker s.node s.node.rt.worker.cancel}
  | .work w =>
    match workStep host.backend s.node.rt.worker s.disk w with
    | none => none
    | some (worker,disk,wrote) => some ⟨setWorker s.node worker,disk,wrote.toList ++ s.bakes⟩

def system (host : Host) : System State Action := ⟨fun s => ∃ disk, s = ⟨fresh,disk,[]⟩,step host⟩

variable {host : Host} {disk made : Files} {node after : Node} {job : BakeJob SdJob} {chance : Chance}
  {thrown : Option Stop} {key : Bytes}

theorem setCurrentKey_quiet (key : Bytes) : Quiet node.rt (setCurrentKey node key).rt := ⟨⟨rfl,rfl⟩,rfl⟩

theorem tryLoad_quiet : Quiet node.rt (tryLoadCacheForKey host disk key node).rt := ⟨⟨rfl,rfl⟩,rfl⟩

theorem tryLoad_cache : (tryLoadCacheForKey host disk key node).rt.cache = loadedCache host disk key node := rfl

theorem validate_rt (P : Runtime SdJob extension → Prop)
    (polls : ∀ rt, P rt → P (rt.pollWorker host.rounding stale))
    (quiet : ∀ a b, Quiet a b → P a → P b) (holds : P node.rt) : P (validate host disk thrown node).rt := by
  have polled : P (pollWorker host node).rt := polls _ holds
  unfold validate
  dsimp only
  split
  · exact holds
  · split
    · exact polled
    · split
      · exact quiet _ _ (setCurrentKey_quiet _) polled
      · exact quiet _ _ ((setCurrentKey_quiet _).trans tryLoad_quiet) polled

theorem computeCacheKey_congr {node' : Node} (knobs : node'.knobs = node.knobs) (source : node'.source = node.source)
    (control : node'.control = node.control) (seed : node'.lastResolvedSeed = node.lastResolvedSeed) :
    computeCacheKey host disk node' = computeCacheKey host disk node := by
  simp only [computeCacheKey,keyFields,nodeLoras,nodePaths,knobs,source,control,seed]

theorem resultPath_congr {node' : Node} (knobs : node'.knobs = node.knobs) :
    resultPath host disk node' key = resultPath host disk node key := by
  simp only [resultPath,nodePaths,knobs]

theorem loadedCache_congr {node' : Node} (knobs : node'.knobs = node.knobs) (cache : node'.rt.cache = node.rt.cache) :
    loadedCache host disk key node' = loadedCache host disk key node := by
  have paths : nodePaths host disk node' = nodePaths host disk node := by rw [nodePaths,knobs,nodePaths]
  rw [loadedCache,loadedCache,resultPath_congr knobs,paths,cache]

structure FileUsable (host : Host) (disk : Files) (node : Node) (key : Bytes) : Prop where
  exists_ : fileExists disk (resultPath host disk node key) = true
  ok : (ImageCache.imageCacheRead (disk.read (resultPath host disk node key))).ok = true
  image : imageUsable (ImageCache.imageCacheRead (disk.read (resultPath host disk node key))) = true

theorem loadedCache_usable (named : key ≠ []) (other : node.rt.cache.loadedKey ≠ key)
    (usable : FileUsable host disk node key) :
    ∃ l : Loaded extension, loadedCache host disk key node = l.buffer ∧ l.key = key ∧
      l.content = disk.read (resultPath host disk node key) := by
  have path : resultPath host disk node key ≠ [] := by
    intro nowhere
    have exists_ := usable.exists_
    rw [nowhere] at exists_
    cases exists_
  have dir : (nodePaths host disk node).cacheDir ≠ [] := by
    intro nowhere
    exact path (by rw [resultPath,cachePath,if_pos nowhere])
  obtain ⟨l,loaded,sameDir,sameKey,sameDisk⟩ := CacheBuffer.load_taken _ ⟨dir,named⟩ usable.ok usable.image
  refine ⟨l,?_,sameKey,?_⟩
  · rw [loadedCache,if_neg (by simp [named,other.symm]),if_neg path,if_neg (by simp [usable.exists_]),loaded,
      Option.getD_some]
  · rw [Loaded.content,sameDir,sameKey,sameDisk]
    rfl

theorem loadedCache_unusable (unusable : ¬ FileUsable host disk node key) :
    loadedCache host disk key node = node.rt.cache := by
  rw [loadedCache]
  split
  · rfl
  · split
    · rfl
    · split
      · rfl
      · rename_i present
        cases loaded : (CacheBuffer.load imageUsable (nodePaths host disk node).cacheDir key disk :
          Option (CacheBuffer extension)) with
        | none => rfl
        | some b =>
          have result := (CacheBuffer.load_isSome.mp (Option.isSome_of_eq_some loaded)).2
          exact absurd ⟨by simpa using present,result.1,result.2⟩ unusable

theorem validate_normal (host : Host) (disk : Files) (node : Node) : validate host disk none node =
    tryLoadCacheForKey host disk (computeCacheKey host disk node)
      (setCurrentKey (pollWorker host node) (computeCacheKey host disk node)) := by
  have key : computeCacheKey host disk (pollWorker host node) = computeCacheKey host disk node :=
    computeCacheKey_congr rfl rfl rfl rfl
  simp only [validate,reduceCtorEq,if_false,key]
  rfl

theorem validate_currentKey : (validate host disk none node).rt.currentKey = computeCacheKey host disk node := by
  rw [validate_normal]
  rfl

theorem validate_knobs : (validate host disk none node).knobs = node.knobs := by
  rw [validate_normal]
  rfl

theorem validate_cache : (validate host disk none node).rt.cache =
    loadedCache host disk (computeCacheKey host disk node) (pollWorker host node) := by
  rw [validate_normal,tryLoad_cache]
  exact loadedCache_congr rfl rfl

def pressNode (chance : Chance) (node : Node) : Node := resolveSeed chance node
def pressKey (host : Host) (disk : Files) (chance : Chance) (node : Node) : Bytes :=
  computeCacheKey host disk (pressNode chance node)
def pressPath (host : Host) (disk : Files) (chance : Chance) (node : Node) : Path :=
  resultPath host disk (pressNode chance node) (pressKey host disk chance node)
def pressDisk (host : Host) (disk : Files) (chance : Chance) (node : Node) : Files :=
  makeCacheDir disk chance (pressPath host disk chance node)

def InputsPass (host : Host) (disk : Files) (chance : Chance) (node : Node) : Prop :=
  refusal host disk node = none ∧ ∃ images, readImages host disk chance node = .ok images

structure Launches (host : Host) (disk : Files) (chance : Chance) (node : Node) : Prop where
  stopped : node.rt.worker.state ≠ .running
  inputs : InputsPass host disk chance node
  absent : fileExists (pressDisk host disk chance node) (pressPath host disk chance node) = false

theorem prepareBake_running (running : node.rt.worker.state = .running) :
    prepareBake host disk chance node = (.stopped (setStatus node (ascii "Already cooking")),disk) := by
  rw [prepareBake,if_pos running]

theorem prepareBake_passes {images : RgbImage × RgbImage} (stopped : node.rt.worker.state ≠ .running)
    (accepted : refusal host disk node = none) (read : readImages host disk chance node = .ok images) :
    prepareBake host disk chance node =
      if fileExists (pressDisk host disk chance node) (pressPath host disk chance node) then
        (.cached (tryLoadCacheForKey host (pressDisk host disk chance node) (pressKey host disk chance node)
          (announceHit (pressNode chance node) (pressKey host disk chance node))),pressDisk host disk chance node)
      else
        (.ready (pressNode chance node)
          (bakeJob host disk (pressDisk host disk chance node) (pressNode chance node) images),
          pressDisk host disk chance node) := by
  simp only [prepareBake,if_neg stopped,accepted,read]
  rfl

-- A press starts nothing before worker_.start; unlike AISmartFill's it leaves a
-- terminal worker as it is.
theorem prepareBake_same (host : Host) (disk : Files) (chance : Chance) (node : Node) :
    SameBake node.rt (prepareBake host disk chance node).1.node.rt := by
  rw [prepareBake]
  split
  · exact ⟨rfl,rfl⟩
  · split
    · exact ⟨rfl,rfl⟩
    · split
      · exact ⟨rfl,rfl⟩
      · dsimp only
        split <;> exact ⟨rfl,rfl⟩

theorem prepareBake_ready (ready : prepareBake host disk chance node = (.ready after job,made)) :
    Launches host disk chance node ∧ after = pressNode chance node ∧ made = pressDisk host disk chance node ∧
    ∃ images, readImages host disk chance node = .ok images ∧
      job = bakeJob host disk (pressDisk host disk chance node) (pressNode chance node) images := by
  by_cases stopped : node.rt.worker.state = .running
  · rw [prepareBake_running stopped] at ready
    cases ready
  · cases accepted : refusal host disk node with
    | some status =>
      simp only [prepareBake,if_neg stopped,accepted] at ready
      cases ready
    | none =>
      cases read : readImages host disk chance node with
      | error status =>
        simp only [prepareBake,if_neg stopped,accepted,read] at ready
        cases ready
      | ok images =>
        rw [prepareBake_passes stopped accepted read] at ready
        split at ready
        · cases ready
        · rename_i absent
          cases ready
          exact ⟨⟨stopped,⟨accepted,images,read⟩,by simpa using absent⟩,rfl,rfl,images,rfl,rfl⟩

theorem prepareBake_launches (launches : Launches host disk chance node) : ∃ images,
    readImages host disk chance node = .ok images ∧ prepareBake host disk chance node =
      (.ready (pressNode chance node)
        (bakeJob host disk (pressDisk host disk chance node) (pressNode chance node) images),
        pressDisk host disk chance node) := by
  obtain ⟨images,read⟩ := launches.inputs.2
  refine ⟨images,read,?_⟩
  rw [prepareBake_passes launches.stopped launches.inputs.1 read,if_neg (by simp [launches.absent])]

def pressJob (host : Host) (disk : Files) (chance : Chance) (node : Node) (images : RgbImage × RgbImage) : BakeJob SdJob :=
  bakeJob host disk (pressDisk host disk chance node) (pressNode chance node) images

def launched (host : Host) (disk : Files) (chance : Chance) (node : Node) (images : RgbImage × RgbImage) : Node :=
  {pressNode chance node with rt := node.rt.launch (pressJob host disk chance node images) taskOps}

theorem launched_bakingKey (images : RgbImage × RgbImage) :
    (launched host disk chance node images).rt.bakingKey ≠ [] := cacheKey_nonempty _

theorem startBake_launches (launches : Launches host disk chance node) : ∃ images,
    readImages host disk chance node = .ok images ∧
    startBake host disk chance node = (launched host disk chance node images,pressDisk host disk chance node) := by
  obtain ⟨images,read,outcome⟩ := prepareBake_launches launches
  refine ⟨images,read,?_⟩
  rw [startBake,outcome]
  rfl

-- The worker a press leaves is the one it found, unless it reaches the start.
theorem startBake_cases (host : Host) (disk : Files) (chance : Chance) (node : Node) :
    (¬ Launches host disk chance node ∧ SameBake node.rt (startBake host disk chance node).1.rt) ∨
    ∃ images, readImages host disk chance node = .ok images ∧ Launches host disk chance node ∧
      (startBake host disk chance node).1 = launched host disk chance node images := by
  by_cases launches : Launches host disk chance node
  · obtain ⟨images,read,started⟩ := startBake_launches launches
    exact .inr ⟨images,read,launches,congrArg Prod.fst started⟩
  · refine .inl ⟨launches,?_⟩
    have same := prepareBake_same host disk chance node
    rw [startBake]
    cases outcome : prepareBake host disk chance node with
    | mk result left =>
      rw [outcome] at same
      cases result with
      | stopped after => exact same
      | cached after => exact same
      | ready after job => exact absurd (prepareBake_ready outcome).1 launches

theorem clearCacheOnDisk_same (refused : Path → Bool) :
    SameBake node.rt (clearCacheOnDisk host refused node disk).1.rt := by
  unfold clearCacheOnDisk
  dsimp only
  split
  · exact ⟨rfl,rfl⟩
  · split <;> exact ⟨rfl,rfl⟩

theorem clearCacheOnDisk_nowhere (refused : Path → Bool) (nowhere : (nodePaths host disk node).cacheDir = []) :
    clearCacheOnDisk host refused node disk = (node,disk) := by
  rw [clearCacheOnDisk,if_pos nowhere]

variable {s next : State} {action : Action}

theorem validate_owned (owned : node.rt.Owned) : (validate host disk thrown node).rt.Owned :=
  validate_rt Owned (fun _ => owned_poll) (fun _ _ quiet owned => owned_same owned quiet.toSameBake) owned

theorem validate_announced (announced : node.rt.Announced) : (validate host disk thrown node).rt.Announced :=
  validate_rt Announced (fun _ => announced_poll) (fun _ _ quiet announced => announced_quiet announced quiet) announced

theorem startBake_owned (owned : node.rt.Owned) (idle : Launches host disk chance node → node.rt.worker.state = .idle) :
    (startBake host disk chance node).1.rt.Owned := by
  rcases startBake_cases host disk chance node with ⟨_,same⟩ | ⟨images,_,launches,started⟩
  · exact owned_same owned same
  · rw [started]
    exact owned_launch (idle launches)

theorem startBake_announced (announced : node.rt.Announced)
    (spoken : node.rt.worker.state = .idle ∨ Launches host disk chance node) :
    (startBake host disk chance node).1.rt.Announced := by
  rcases startBake_cases host disk chance node with ⟨refused,same⟩ | ⟨images,_,launches,started⟩
  · rcases spoken with idle | launches
    · exact announced_unheard announced idle same
    · contradiction
  · rw [started]
    exact announced_launch announced.1

theorem step_work {w : WorkStep} (ran : step host s (.work w) = some next) :
    ∃ worker disk wrote, workStep host.backend s.node.rt.worker s.disk w = some (worker,disk,wrote) ∧
      next = ⟨setWorker s.node worker,disk,wrote.toList ++ s.bakes⟩ := by
  simp only [step] at ran
  split at ran
  · cases ran
  · rename_i worker disk wrote worked
    cases ran
    exact ⟨worker,disk,wrote,worked,rfl⟩

section Log
variable {ok : BakeJob SdJob → Prop} {bakes : List (Written SdJob)}

theorem validate_logged (logged : node.rt.worker.Logged host.backend ok bakes) :
    (validate host disk thrown node).rt.worker.Logged host.backend ok bakes :=
  validate_rt (fun rt => rt.worker.Logged host.backend ok bakes) (fun _ => logged_poll)
    (fun _ _ quiet logged => logged_same logged quiet.toSameBake) logged

theorem startBake_logged (logged : node.rt.worker.Logged host.backend ok bakes)
    (valid : ∀ after job made, prepareBake host disk chance node = (.ready after job,made) → ok job) :
    (startBake host disk chance node).1.rt.worker.Logged host.backend ok bakes := by
  rcases startBake_cases host disk chance node with ⟨_,same⟩ | ⟨images,read,launches,started⟩
  · exact logged_same logged same
  · obtain ⟨images',read',outcome⟩ := prepareBake_launches launches
    cases read.symm.trans read'
    rw [started]
    exact logged_launch logged (valid _ _ _ outcome)

theorem step_logged (logged : s.node.rt.worker.Logged host.backend ok s.bakes)
    (valid : ∀ chance after job made, action = .bake chance →
      prepareBake host s.disk chance s.node = (.ready after job,made) → ok job)
    (ran : step host s action = some next) : next.node.rt.worker.Logged host.backend ok next.bakes := by
  cases action with
  | work w =>
    obtain ⟨worker,disk,wrote,worked,rfl⟩ := step_work ran
    exact AiWorker.logged_work logged worked
  | validate thrown =>
    cases ran
    exact validate_logged logged
  | bake chance =>
    cases ran
    exact startBake_logged logged (fun after job made ready => valid chance after job made rfl ready)
  | clearCache refused =>
    cases ran
    exact logged_same logged (clearCacheOnDisk_same refused)
  | cancel =>
    cases ran
    exact ⟨AiWorker.carries_cancel logged.carries,logged.writes⟩
  | edit _ | connect _ _ | files _ =>
    cases ran
    exact logged

theorem guarded_logged {allowed : State → Action → Prop} (path : Guarded (system host) allowed s)
    (valid : ∀ s chance after job made, allowed s (.bake chance) →
      prepareBake host s.disk chance s.node = (.ready after job,made) → ok job) :
    s.node.rt.worker.Logged host.backend ok s.bakes := by
  refine Guarded.keeps (fun s => s.node.rt.worker.Logged host.backend ok s.bakes) path ?_ ?_
  · intro s start
    rcases start with ⟨disk,rfl⟩
    exact AiWorker.logged_fresh
  · intro s action next logged permitted ran
    refine step_logged logged ?_ ran
    intro chance after job made pressed ready
    cases pressed
    exact valid s chance after job made permitted ready

end Log

section Completion
variable {allowed : State → Action → Prop} {context : AiWorkerContext} {err : Bytes}
  {bakes : List (Written SdJob)} {run : BakeRun SdJob}

def working (node : Node) (disk : Files) (bakes : List (Written SdJob)) (context : AiWorkerContext) (err : Bytes)
    (run : BakeRun SdJob) : State :=
  ⟨setWorker node ⟨.running,context,err,.body run⟩,disk,bakes⟩

theorem working_bakingKey : (working node disk bakes context err run).node.rt.bakingKey = node.rt.bakingKey := rfl

theorem bake_starts (path : Guarded (system host) allowed s) (permitted : allowed s (.bake chance))
    (idle : s.node.rt.worker.state = .idle) (launches : Launches host s.disk chance s.node) :
    ∃ images, readImages host s.disk chance s.node = .ok images ∧ Guarded (system host) allowed
      (working (launched host s.disk chance s.node images) (pressDisk host s.disk chance s.node) s.bakes
        ⟨F32.zero,false,ascii "Starting"⟩ s.node.rt.worker.errorMessage
        ⟨pressJob host s.disk chance s.node images,taskOps,none⟩) := by
  obtain ⟨images,read,started⟩ := startBake_launches launches
  refine ⟨images,read,path.act (.bake chance) permitted ?_⟩
  have worker : (launched host s.disk chance s.node images).rt.worker = ⟨.running,⟨F32.zero,false,ascii "Starting"⟩,
      s.node.rt.worker.errorMessage,.body ⟨pressJob host s.disk chance s.node images,taskOps,none⟩⟩ :=
    congrArg Prod.fst (AiWorker.start_idle idle _)
  rw [working,← worker]
  simp only [system,step,started]
  rfl

theorem bake_fails (free : ∀ s w, allowed s (.work w))
    (path : Guarded (system host) allowed (working node disk bakes context err run)) (msg : Bytes) :
    Guarded (system host) allowed ⟨setWorker node ⟨.error,context,msg,.exited run⟩,disk,bakes⟩ := by
  have thrown : Guarded (system host) allowed ⟨setWorker node ⟨.running,context,err,.ended run .error msg⟩,disk,bakes⟩ :=
    path.act (.work (.throws msg)) (free _ _) rfl
  have stored : Guarded (system host) allowed ⟨setWorker node ⟨.running,context,msg,.publishing run .error⟩,disk,bakes⟩ :=
    thrown.act (.work .storeError) (free _ _) rfl
  exact stored.act (.work .publish) (free _ _) rfl

variable {job : BakeJob SdJob} {pixels : List F32} {faults : ImageCache.Faults}

theorem working_status {text : Bytes} {rest : List TaskOp} {made : Option (List F32)}
    (free : ∀ s w, allowed s (.work w))
    (path : Guarded (system host) allowed (working node disk bakes context err ⟨job,.setStatusText text :: rest,made⟩)) :
    Guarded (system host) allowed (working node disk bakes {context with statusText := text} err ⟨job,rest,made⟩) :=
  .step path (free _ .next) rfl

theorem working_progress {p : F32} {rest : List TaskOp} {made : Option (List F32)}
    (free : ∀ s w, allowed s (.work w))
    (path : Guarded (system host) allowed (working node disk bakes context err ⟨job,.setProgress p :: rest,made⟩)) :
    Guarded (system host) allowed (working node disk bakes (context.setProgress p) err ⟨job,rest,made⟩) :=
  .step path (free _ .next) rfl

theorem working_load {rest : List TaskOp} {made : Option (List F32)} (free : ∀ s w, allowed s (.work w))
    (path : Guarded (system host) allowed (working node disk bakes context err ⟨job,.load :: rest,made⟩)) :
    Guarded (system host) allowed (working node disk bakes context err ⟨job,rest,made⟩) :=
  .step path (free _ .next) rfl

def wroteJob (faults : ImageCache.Faults) (job : BakeJob SdJob) (pixels : List F32) (disk : Files) : Written SdJob :=
  ⟨⟨job,[.write,.setProgress F32.one],some pixels⟩,pixels,true,
    (writeRun faults job pixels disk).final.read job.path⟩

theorem bake_produces (free : ∀ s w, allowed s (.work w))
    (path : Guarded (system host) allowed (working node disk bakes context err ⟨job,taskOps,none⟩))
    (made : host.backend job.task 0 none = .ok pixels) :
    ∃ later : AiWorkerContext, later.cancelRequest = context.cancelRequest ∧ Guarded (system host) allowed
      (working node disk bakes later err ⟨job,[.write,.setProgress F32.one],some pixels⟩) := by
  have loaded := working_load free (working_progress free (working_status free path))
  have generating := working_progress free (working_status free loaded)
  have produced := generating.step (free _ (.produce 0 none))
    (show _ = some (working node disk bakes _ err ⟨job,_,some pixels⟩) by
      simp only [system,step,working,workStep,setWorker,made]
      rfl)
  have writing := working_progress free (working_status free produced)
  refine ⟨_,?_,writing⟩
  rfl

theorem bake_completes (free : ∀ s w, allowed s (.work w))
    (path : Guarded (system host) allowed (working node disk bakes context err ⟨job,taskOps,none⟩))
    (made : host.backend job.task 0 none = .ok pixels)
    (alone : context.cancelRequest = false) (wrote : (writeRun faults job pixels disk).ok = true) :
    ∃ worker, worker.state = .done ∧ Guarded (system host) allowed
      ⟨setWorker node worker,(writeRun faults job pixels disk).final,wroteJob faults job pixels disk :: bakes⟩ := by
  obtain ⟨later,same,writing⟩ := bake_produces free path made
  have written : Guarded (system host) allowed (working node (writeRun faults job pixels disk).final
      (wroteJob faults job pixels disk :: bakes) later err ⟨job,[.setProgress F32.one],some pixels⟩) := by
    refine writing.step (free _ (.write faults)) ?_
    simp only [system,step,working,workStep,setWorker,wrote,if_true]
    rfl
  let ended (thread : Thread (BakeRun SdJob)) : State :=
    ⟨setWorker node ⟨.running,later.setProgress F32.one,err,thread⟩,(writeRun faults job pixels disk).final,
      wroteJob faults job pixels disk :: bakes⟩
  have returned : Guarded (system host) allowed
      (ended (.ended ⟨job,[],some pixels⟩ (finalState (later.setProgress F32.one)) [])) :=
    (working_progress free written).step (free _ .returns) rfl
  have final : finalState (later.setProgress F32.one) = .done := by
    simp [finalState,AiWorkerContext.setProgress,same,alone]
  rw [final] at returned
  have stored : Guarded (system host) allowed (ended (.publishing ⟨job,[],some pixels⟩ .done)) :=
    returned.step (free _ .storeError) rfl
  exact ⟨_,rfl,stored.step (free _ .publish) rfl⟩

end Completion

def sdModel : Path := ascii "/m"

def sdKnobs (prompt : Bytes) : Knobs :=
  {defaultKnobs with prompt := prompt,modelType := 2,diffusionModelPath := sdModel,cacheDir := ascii "/c"}

def sdDisk : Files := Disk.empty.write sdModel []

def sdChance : Chance := ⟨5,.none,.none,true⟩

def sdHost : Host :=
  ⟨⟨fun _ => F32.zero,fun x _ => x,fun x _ => x,fun x _ => x,fun x _ => x,fun _ => 0,fun _ => 0,fun _ => 0⟩,
    fun _ => none,fun _ _ _ => .ok [],[],[]⟩

theorem sdDisk_absent {p : Path} (different : p ≠ sdModel) : fileExists sdDisk p = false := by
  have missing : sdDisk.read p = none := by
    rw [sdDisk,Disk.read_write_other different,Disk.read_empty]
  have flat : sdDisk.dirs = [] := rfl
  simp [fileExists,Disk.present,missing,flat]

theorem cachePath_long {dir key : Bytes} (named : dir ≠ []) : 6 ≤ (cachePath extension dir key).length := by
  have tail : extension.length = 6 := by decide
  rw [cachePath,if_neg named]
  simp only [List.length_append,tail]
  omega

theorem cachePath_other {key : Bytes} : cachePath extension (ascii "/c") key ≠ sdModel := by
  intro same
  have long : 6 ≤ (cachePath extension (ascii "/c") key).length := cachePath_long (by decide)
  rw [same] at long
  exact absurd long (by decide)

theorem sdNode_paths (disk : Files) {node : Node} {prompt : Bytes} (knobs : node.knobs = sdKnobs prompt) :
    nodePaths sdHost disk node = ⟨[],sdModel,[],[],[],ascii "/c",ascii "/loras",[]⟩ := by
  rw [nodePaths,knobs]
  rfl

theorem sdNode_pressPath (disk : Files) {node : Node} {prompt : Bytes} (knobs : node.knobs = sdKnobs prompt) :
    pressPath sdHost disk sdChance node = cachePath extension (ascii "/c") (pressKey sdHost disk sdChance node) := by
  rw [pressPath,resultPath,sdNode_paths disk (show (pressNode sdChance node).knobs = sdKnobs prompt from knobs)]

theorem sdNode_key (disk disk' : Files) {node : Node} {prompt : Bytes} (knobs : node.knobs = sdKnobs prompt) :
    computeCacheKey sdHost disk node = computeCacheKey sdHost disk' node := by
  unfold computeCacheKey keyFields nodeLoras
  rw [sdNode_paths disk knobs,sdNode_paths disk' knobs]

theorem sdNode_pressDisk (disk : Files) (node : Node) : pressDisk sdHost disk sdChance node = disk := by
  rw [pressDisk,makeCacheDir,if_pos (.inr rfl)]

theorem sdNode_passes {disk : Files} {node : Node} {prompt : Bytes} (written : prompt ≠ [])
    (present : fileExists disk sdModel = true) (knobs : node.knobs = sdKnobs prompt)
    (alone : node.source = none ∧ node.control = none) : InputsPass sdHost disk sdChance node := by
  refine ⟨?_,⟨RgbImage.none,RgbImage.none⟩,?_⟩
  · simp only [refusal,knobs,sdNode_paths disk knobs,present]
    rw [if_neg (show (sdKnobs prompt).prompt ≠ [] from written)]
    rfl
  · simp only [readImages,alone.1,sdNode_paths disk knobs]
    rfl

theorem sdNode_launches {node : Node} {prompt : Bytes} (written : prompt ≠ []) (stopped : node.rt.worker.state ≠ .running)
    (knobs : node.knobs = sdKnobs prompt) (alone : node.source = none ∧ node.control = none) :
    Launches sdHost sdDisk sdChance node := by
  refine ⟨stopped,sdNode_passes written (by decide) knobs alone,?_⟩
  rw [sdNode_pressDisk,sdNode_pressPath sdDisk knobs]
  exact sdDisk_absent cachePath_other

def sdNode (prompt : Bytes) : Node := {fresh with knobs := sdKnobs prompt}

def sdStart : State := ⟨sdNode (ascii "x"),sdDisk,[]⟩

theorem sdStart_reached {allowed : State → Action → Prop} (edits : ∀ s k, allowed s (.edit k)) :
    Guarded (system sdHost) allowed sdStart := by
  have start : Guarded (system sdHost) allowed ⟨fresh,sdDisk,[]⟩ := .initial ⟨sdDisk,rfl⟩
  exact start.act (.edit (sdKnobs (ascii "x"))) (edits _ _) rfl

theorem sdStart_launches : Launches sdHost sdDisk sdChance sdStart.node :=
  sdNode_launches (show ascii "x" ≠ [] by decide) (by decide) rfl ⟨rfl,rfl⟩

theorem sdStart_works {allowed : State → Action → Prop} (path : Guarded (system sdHost) allowed sdStart)
    (permitted : allowed sdStart (.bake sdChance)) : ∃ images, Guarded (system sdHost) allowed
      (working (launched sdHost sdDisk sdChance sdStart.node images) sdDisk [] ⟨F32.zero,false,ascii "Starting"⟩ []
        ⟨pressJob sdHost sdDisk sdChance sdStart.node images,taskOps,none⟩) := by
  obtain ⟨images,_,working⟩ := bake_starts path permitted rfl sdStart_launches
  exact ⟨images,working⟩

end SmartFill.AIGenerate
