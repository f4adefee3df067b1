import SmartFill.AISmartFill
import SmartFill.Lib.Transition

open SmartFill.Runtime

namespace SmartFill.AISmartFill
open Transition

structure State where
  node : Node
  disk : Files
  bakes : List (Written FillTask)

-- Main-thread calls run to their end before the next; the worker's steps fall
-- between them. It reads nothing the main thread writes except the cancel
-- request, and writes nothing the main thread reads before the state it
-- publishes, so a step inside a call could as well come before or after it.
inductive Action where
  | edit (knobs : Knobs)
  | connect (source mask : Option Input)
  | files (disk : Files)
  | validate (thrown : Option Stop)
  | bake (validated : Option (Option Stop))
  | bakeThrown (validated : Option (Option Stop)) (stop : BakeStop)
  | clearCache (refused : Path → Bool)
  | cancel
  | work (step : WorkStep)

def step (host : Host) (s : State) : Action → Option State
  | .edit knobs => some {s with node := {s.node with knobs := knobs}}
  | .connect source mask => some {s with node := {s.node with source := source,mask := mask}}
  | .files disk => some {s with disk := disk}
  | .validate thrown => some {s with node := validate host s.disk thrown s.node}
  | .bake validated => some {s with node := startBake host s.disk validated s.node}
  | .bakeThrown validated stop =>
    (thrownBake host s.disk validated stop s.node).map (fun node => {s with node := node})
  | .clearCache refused =>
    let (node,disk) := clearCacheDir host refused s.node s.disk
    some {s with node := node,disk := disk}
  | .cancel => some {s with node := setWorker s.node s.node.rt.worker.cancel}
  | .work w =>
    match workStep (backend host) s.node.rt.worker s.disk w with
    | none => none
    | some (worker,disk,wrote) => some ⟨setWorker s.node worker,disk,wrote.toList ++ s.bakes⟩

def system (host : Host) : System State Action := ⟨fun s => ∃ disk, s = ⟨fresh,disk,[]⟩,step host⟩

variable {host : Host} {disk : Files} {node after : Node} {job : BakeJob FillTask}
  {thrown : Option Stop} {validated : Option (Option Stop)} {key : Bytes}

theorem resolve_resolved (k : Knobs) :
    resolveDefaultPaths host (resolveDefaultPaths host k) = resolveDefaultPaths host k := by
  obtain ⟨threshold,backend,modelPath,cacheDir⟩ := k
  unfold resolveDefaultPaths
  by_cases dir : cacheDir = [] <;> by_cases model : modelPath = [] ∧ host.currentPluginDir ≠ []
  all_goals simp only [dir,model,if_true,if_false]
  all_goals split_ifs <;> simp_all

theorem resultPath_cachePath (named : key ≠ []) :
    resultPath node key = cachePath extension (normalizePath node.knobs.cacheDir) key := by
  simp [resultPath,cachePath,named]

theorem setCurrentKey_quiet (key : Bytes) : Quiet node.rt (setCurrentKey node key).rt := ⟨⟨rfl,rfl⟩,rfl⟩

theorem tryLoad_quiet : Quiet node.rt (tryLoadCacheForKey disk key node).rt := ⟨⟨rfl,rfl⟩,rfl⟩

theorem tryLoad_cache : (tryLoadCacheForKey disk key node).rt.cache = loadedCache disk key node := rfl

theorem pollWorker_idle (idle : node.rt.worker.state = .idle) : pollWorker host node = node := by
  rw [pollWorker,poll_idle idle]

-- Whatever poll_worker and silent changes keep, _validate keeps, wherever an
-- exception leaves it.
theorem validate_rt (P : Runtime FillTask extension → Prop)
    (polls : ∀ rt, P rt → P (rt.pollWorker host.rounding stale))
    (quiet : ∀ a b, Quiet a b → P a → P b) (holds : P node.rt) : P (validate host disk thrown node).rt := by
  have polled : P (pollWorker host (enter host node)).rt := polls _ holds
  unfold validate
  dsimp only
  split
  · exact holds
  · split
    · exact polled
    · split
      · exact quiet _ _ (setCurrentKey_quiet _) polled
      · exact quiet _ _ ((setCurrentKey_quiet _).trans tryLoad_quiet) polled

theorem computeCacheKey_congr {node' : Node} (source : node'.source = node.source) (mask : node'.mask = node.mask)
    (knobs : node'.knobs = node.knobs) : computeCacheKey node' = computeCacheKey node := by
  simp only [computeCacheKey,source,mask,knobs]

theorem resultPath_congr {node' : Node} (knobs : node'.knobs = node.knobs) :
    resultPath node' key = resultPath node key := by
  simp only [resultPath,knobs]

theorem loadedCache_congr {node' : Node} (knobs : node'.knobs = node.knobs) (cache : node'.rt.cache = node.rt.cache) :
    loadedCache disk key node' = loadedCache disk key node := by
  rw [loadedCache,loadedCache,resultPath_congr knobs,knobs,cache]

theorem loadedCache_empty (empty : node.rt.cache = .cleared) (named : key ≠ [])
    (present : fileExists disk (resultPath node key) = true) :
    loadedCache disk key node =
      (CacheBuffer.load (fun _ => true) (normalizePath node.knobs.cacheDir) key disk).getD .cleared := by
  have path : resultPath node key ≠ [] := by
    intro nowhere
    simp [nowhere,fileExists] at present
  rw [loadedCache,if_neg named,if_neg (by simp [empty,CacheBuffer.cleared]),if_neg path,if_neg (by simp [present])]

-- _validate does not touch what a Bake press looks at, but for the defaults.
structure SamePress (host : Host) (before after : Node) : Prop where
  source : after.source = before.source
  mask : after.mask = before.mask
  session : after.session = before.session
  knobs : after.knobs = resolveDefaultPaths host before.knobs

theorem validate_press : SamePress host node (validate host disk thrown node) := by
  unfold validate
  dsimp only
  split
  · exact ⟨rfl,rfl,rfl,rfl⟩
  · split
    · exact ⟨rfl,rfl,rfl,rfl⟩
    · split <;> exact ⟨rfl,rfl,rfl,rfl⟩

theorem revalidate_press : SamePress host (setKnobs node (resolveDefaultPaths host node.knobs))
    (revalidate host disk validated (setKnobs node (resolveDefaultPaths host node.knobs))) := by
  unfold revalidate
  split
  · exact ⟨rfl,rfl,rfl,(resolve_resolved _).symm⟩
  · exact validate_press

theorem revalidate_rt (P : Runtime FillTask extension → Prop)
    (polls : ∀ rt, P rt → P (rt.pollWorker host.rounding stale))
    (quiet : ∀ a b, Quiet a b → P a → P b) (holds : P node.rt) : P (revalidate host disk validated node).rt := by
  unfold revalidate
  split
  · exact holds
  · exact validate_rt P polls quiet holds

theorem revalidate_quiet (node : Node) (idle : node.rt.worker.state = .idle) :
    Quiet node.rt (revalidate host disk validated node).rt := by
  refine revalidate_rt (Quiet node.rt) ?_ ?_ ⟨⟨rfl,rfl⟩,rfl⟩
  · intro rt same
    rw [poll_idle (by rw [same.worker]; exact idle)]
    exact same
  · intro a b quiet same
    exact same.trans quiet

theorem revalidate_idle (node : Node) (idle : node.rt.worker.state = .idle) :
    SameBake node.rt (revalidate host disk validated node).rt := (revalidate_quiet node idle).toSameBake

def pressKnobs (host : Host) (node : Node) : Knobs := resolveDefaultPaths host node.knobs
def pressKey (host : Host) (node : Node) : Bytes := computeCacheKey (setKnobs node (pressKnobs host node))
def pressPath (host : Host) (node : Node) : Path :=
  resultPath (setKnobs node (pressKnobs host node)) (pressKey host node)

theorem pressKey_nonempty (host : Host) (node : Node) : pressKey host node ≠ [] := cacheKey_nonempty _

def polled (host : Host) (node : Node) : Node := pollWorker host (enter host node)

theorem polled_key : computeCacheKey (polled host node) = pressKey host node := computeCacheKey_congr rfl rfl rfl

theorem validate_normal (host : Host) (disk : Files) (node : Node) : validate host disk none node =
    tryLoadCacheForKey disk (pressKey host node) (setCurrentKey (polled host node) (pressKey host node)) := by
  rw [← polled_key]
  simp only [validate,reduceCtorEq,if_false]
  rfl

theorem validate_currentKey : (validate host disk none node).rt.currentKey = pressKey host node := by
  rw [validate_normal]
  rfl

theorem validate_cache :
    (validate host disk none node).rt.cache = loadedCache disk (pressKey host node) (polled host node) := by
  rw [validate_normal,tryLoad_cache]
  exact loadedCache_congr rfl rfl

theorem validate_knobs : (validate host disk none node).knobs = pressKnobs host node := validate_press.knobs

theorem validate_loads (empty : node.rt.cache = .cleared) (present : fileExists disk (pressPath host node) = true)
    (readable : (ImageCache.imageCacheRead (disk.read (pressPath host node))).ok = true) :
    ∃ l : Loaded extension, (validate host disk none node).rt.cache = l.buffer ∧ l.key = pressKey host node ∧
      l.content = disk.read (pressPath host node) := by
  have named := pressKey_nonempty host node
  have polledEmpty : (polled host node).rt.cache = .cleared := by
    rw [show (polled host node).rt = node.rt.pollWorker host.rounding stale from rfl,poll_cache,empty]
    exact ite_self _
  have path : resultPath (polled host node) (pressKey host node) = pressPath host node := rfl
  have cached : pressPath host node =
      cachePath extension (normalizePath (polled host node).knobs.cacheDir) (pressKey host node) :=
    resultPath_cachePath named
  have dir : normalizePath (polled host node).knobs.cacheDir ≠ [] := by
    intro nowhere
    rw [cached,cachePath,if_pos nowhere] at present
    cases present
  rw [cached] at readable
  obtain ⟨l,loaded,sameDir,sameKey,sameDisk⟩ := CacheBuffer.load_taken (fun _ => true) ⟨dir,named⟩ readable rfl
  refine ⟨l,?_,sameKey,?_⟩
  · rw [validate_cache,loadedCache_empty polledEmpty named (by rw [path]; exact present),loaded,Option.getD_some]
  · rw [Loaded.content,sameDir,sameKey,sameDisk,cached]

structure InputsPass (node : Node) (source mask : Input) : Prop where
  connected : node.source = some source ∧ node.mask = some mask
  size : 0 < source.box.w ∧ 0 < source.box.h
  iops : source.isIop = true ∧ mask.isIop = true

def pressJob (host : Host) (node : Node) (source mask : Input) : BakeJob FillTask :=
  let k := pressKnobs host node
  ⟨⟨⟨source,mask,k.maskThreshold,k.backend,k.modelPath⟩,extractRgb source,extractMask source.box mask k.maskThreshold,
    source.box.w,source.box.h,node.session.getD (wantedSession k)⟩,pressKey host node,pressPath host node,
    source.box.w,source.box.h⟩

def pressNode (host : Host) (disk : Files) (validated : Option (Option Stop)) (node : Node) : Node :=
  revalidate host disk validated (setKnobs (setWorker node node.rt.worker.reset) (pressKnobs host node))

theorem pressNode_press : SamePress host (setKnobs node (pressKnobs host node)) (pressNode host disk validated node) := by
  have same : SamePress host (setKnobs (setWorker node node.rt.worker.reset) (pressKnobs host node))
      (pressNode host disk validated node) := revalidate_press
  exact ⟨same.source,same.mask,same.session,same.knobs⟩

theorem pressNode_knobs : (pressNode host disk validated node).knobs = pressKnobs host node := by
  rw [pressNode_press.knobs]
  exact resolve_resolved _

theorem pressNode_key : computeCacheKey (pressNode host disk validated node) = pressKey host node := by
  unfold pressKey computeCacheKey
  rw [pressNode_knobs,pressNode_press.source,pressNode_press.mask]
  rfl

theorem pressNode_path : resultPath (pressNode host disk validated node) (pressKey host node) = pressPath host node := by
  unfold pressPath resultPath
  rw [pressNode_knobs]
  rfl

theorem prepareBake_running (running : node.rt.worker.state = .running) :
    prepareBake host disk validated node = .stopped (setStatus node (ascii "Already cooking")) := by
  rw [prepareBake,if_pos running]

-- A press that is not refused consumes a terminal worker and starts nothing
-- itself.
theorem prepareBake_same (host : Host) (disk : Files) (validated : Option (Option Stop))
    (stopped : node.rt.worker.state ≠ .running) :
    SameBake (setWorker node node.rt.worker.reset).rt (prepareBake host disk validated node).node.rt := by
  rw [prepareBake,if_neg stopped]
  dsimp only
  split
  · exact ⟨rfl,rfl⟩
  · exact ⟨rfl,rfl⟩
  · generalize resolveDefaultPaths host _ = k
    have same : SameBake (setWorker node node.rt.worker.reset).rt
        (revalidate host disk validated (setKnobs (setWorker node node.rt.worker.reset) k)).rt :=
      revalidate_idle (setKnobs (setWorker node node.rt.worker.reset) k) (AiWorker.reset_idle stopped)
    split
    · exact ⟨same.worker,same.bakingKey⟩
    · split
      · exact ⟨same.worker,same.bakingKey⟩
      · split
        · exact ⟨same.worker,same.bakingKey⟩
        · exact ⟨same.worker,same.bakingKey⟩

def readyNode (host : Host) (disk : Files) (validated : Option (Option Stop)) (node : Node) : Node :=
  setCurrentKey {pressNode host disk validated node with
    session := some (node.session.getD (wantedSession (pressKnobs host node)))} (pressKey host node)

-- With inputs that pass, the cache file alone decides between the two ends.
theorem prepareBake_passes (host : Host) (disk : Files) (validated : Option (Option Stop))
    {source mask : Input} (stopped : node.rt.worker.state ≠ .running) (passes : InputsPass node source mask) :
    prepareBake host disk validated node =
      if fileExists disk (pressPath host node) then
        .cached (tryLoadCacheForKey disk (pressKey host node)
          (announceHit (pressNode host disk validated node) (pressKey host node)))
      else .ready (readyNode host disk validated node) (pressJob host node source mask) := by
  obtain ⟨⟨found,found'⟩,size,iops⟩ := passes
  have found : (setWorker node node.rt.worker.reset).source = some source := found
  have found' : (setWorker node node.rt.worker.reset).mask = some mask := found'
  have entered : revalidate host disk validated (setKnobs (setWorker node node.rt.worker.reset)
      (resolveDefaultPaths host (setWorker node node.rt.worker.reset).knobs)) = pressNode host disk validated node := rfl
  rw [prepareBake,if_neg stopped]
  simp only [found,found',entered,pressNode_key,pressNode_path]
  rw [if_neg (by omega)]
  split
  · rfl
  · rw [if_neg (by simp [iops.1,iops.2])]
    simp only [readyNode,pressNode_knobs,pressNode_press.session]
    rfl

structure Ready (host : Host) (disk : Files) (node after : Node) (job : BakeJob FillTask) : Prop where
  stopped : node.rt.worker.state ≠ .running
  absent : fileExists disk (pressPath host node) = false
  press : ∃ source mask, InputsPass node source mask ∧ job = pressJob host node source mask
  session : after.session = some job.task.session

theorem prepareBake_ready (ready : prepareBake host disk validated node = .ready after job) :
    Ready host disk node after job := by
  have stopped : node.rt.worker.state ≠ .running := by
    intro running
    rw [prepareBake_running running] at ready
    cases ready
  have passes : ∃ source mask, InputsPass node source mask := by
    rw [prepareBake,if_neg stopped] at ready
    dsimp only at ready
    split at ready
    · cases ready
    · cases ready
    · rename_i source mask found found'
      split at ready
      · cases ready
      · rename_i size
        split at ready
        · cases ready
        · split at ready
          · cases ready
          · rename_i iops
            exact ⟨source,mask,⟨found,found'⟩,by omega,by simpa using iops⟩
  obtain ⟨source,mask,passes⟩ := passes
  rw [prepareBake_passes host disk validated stopped passes] at ready
  split at ready
  · cases ready
  · rename_i absent
    cases ready
    exact ⟨stopped,by simpa using absent,⟨source,mask,passes,rfl⟩,rfl⟩

-- The worker a press leaves: the one it found, a reset one, or a reset one
-- that was handed the job.
theorem startBake_cases (host : Host) (disk : Files) (validated : Option (Option Stop)) (node : Node) :
    (node.rt.worker.state = .running ∧
      startBake host disk validated node = setStatus node (ascii "Already cooking")) ∨
    (node.rt.worker.state ≠ .running ∧
      SameBake (setWorker node node.rt.worker.reset).rt (startBake host disk validated node).rt) ∨
    ∃ after job, prepareBake host disk validated node = .ready after job ∧
      SameBake (setWorker node node.rt.worker.reset).rt after.rt ∧
      startBake host disk validated node = {after with rt := after.rt.launch job taskOps} := by
  by_cases running : node.rt.worker.state = .running
  · exact .inl ⟨running,by rw [startBake,prepareBake_running running]⟩
  · have same := prepareBake_same host disk validated running
    rw [startBake]
    cases outcome : prepareBake host disk validated node with
    | stopped after =>
      rw [outcome] at same
      exact .inr (.inl ⟨running,same⟩)
    | cached after =>
      rw [outcome] at same
      exact .inr (.inl ⟨running,same⟩)
    | ready after job =>
      rw [outcome] at same
      exact .inr (.inr ⟨after,job,rfl,same,rfl⟩)

theorem startBake_miss {source mask : Input} (stopped : node.rt.worker.state ≠ .running)
    (passes : InputsPass node source mask) (absent : fileExists disk (pressPath host node) = false) :
    startBake host disk validated node = {readyNode host disk validated node with
      rt := (readyNode host disk validated node).rt.launch (pressJob host node source mask) taskOps} := by
  rw [startBake,prepareBake_passes host disk validated stopped passes,if_neg (by simp [absent])]

theorem ready_idle (ready : prepareBake host disk validated node = .ready after job) :
    after.rt.worker.state = .idle := by
  have stopped := (prepareBake_ready ready).stopped
  have same := prepareBake_same host disk validated stopped
  rw [ready] at same
  rw [show after.rt.worker = node.rt.worker.reset from same.worker]
  exact AiWorker.reset_idle stopped

theorem startBake_owned (owned : node.rt.Owned) : (startBake host disk validated node).rt.Owned := by
  rcases startBake_cases host disk validated node with ⟨_,said⟩ | ⟨_,same⟩ | ⟨after,job,ready,_,started⟩
  · rw [said]
    exact owned_same owned ⟨rfl,rfl⟩
  · exact owned_same (owned_reset owned) same
  · rw [started]
    exact owned_launch (ready_idle ready)

theorem startBake_announced (announced : node.rt.Announced) (stopped : node.rt.worker.state ≠ .running) :
    (startBake host disk validated node).rt.Announced := by
  have coherent := AiWorker.reset_coherent announced.1
  rcases startBake_cases host disk validated node with ⟨running,_⟩ | ⟨_,same⟩ | ⟨after,job,_,same,started⟩
  · contradiction
  · refine announced_idle ?_ ?_
    · rw [same.worker]
      exact coherent
    · rw [same.worker]
      exact AiWorker.reset_idle stopped
  · rw [started]
    refine announced_launch ?_
    rw [same.worker]
    exact coherent

theorem prepareBake_unconnected (stopped : node.rt.worker.state ≠ .running)
    (unconnected : (node.source.isSome && node.mask.isSome) = false) :
    ∃ after, prepareBake host disk validated node = .stopped after := by
  rw [prepareBake,if_neg stopped]
  dsimp only
  split
  · exact ⟨_,rfl⟩
  · exact ⟨_,rfl⟩
  · rename_i found found'
    have connected : (node.source.isSome && node.mask.isSome) = true :=
      Bool.and_eq_true_iff.mpr ⟨Option.isSome_of_eq_some found,Option.isSome_of_eq_some found'⟩
    rw [connected] at unconnected
    cases unconnected

-- Where an exception can have left a press.
theorem thrownBake_cases {stop : BakeStop} (thrown : thrownBake host disk validated stop node = some after) :
    node.rt.worker.state ≠ .running ∧
    ((stop = .entered ∧ after = setWorker node node.rt.worker.reset) ∨
      (stop = .validated ∧ (node.source.isSome && node.mask.isSome) = true ∧ after = pressNode host disk validated node) ∨
      (stop = .hit ∧ (node.source.isSome && node.mask.isSome) = true ∧
        after = announceHit (pressNode host disk validated node) (pressKey host node)) ∨
      (node.source.isSome && node.mask.isSome) = true ∧ ∃ ready job,
        prepareBake host disk validated node = .ready ready job ∧
        ((stop = .session ∧ after = {pressNode host disk validated node with session := some job.task.session}) ∨
          (stop = .announced ∧ after = {ready with rt := ready.rt.announce job.key}))) := by
  have entered : revalidate host disk validated (setKnobs (setWorker node node.rt.worker.reset)
      (resolveDefaultPaths host (setWorker node node.rt.worker.reset).knobs)) = pressNode host disk validated node := rfl
  unfold thrownBake at thrown
  split at thrown
  · cases thrown
  · rename_i stopped
    refine ⟨stopped,?_⟩
    dsimp only at thrown
    rw [entered,pressNode_key] at thrown
    have connected (going : ∀ after, prepareBake host disk validated node ≠ .stopped after) :
        (node.source.isSome && node.mask.isSome) = true := by
      by_contra unconnected
      obtain ⟨after,ended⟩ := @prepareBake_unconnected host disk node validated stopped (Bool.eq_false_iff.mpr unconnected)
      exact going after ended
    split at thrown
    · cases thrown
      exact .inl ⟨rfl,rfl⟩
    · split at thrown
      · rename_i connected
        cases thrown
        exact .inr (.inl ⟨rfl,connected,rfl⟩)
      · cases thrown
    · rename_i hit outcome
      cases thrown
      exact .inr (.inr (.inl ⟨rfl,connected (by simp [outcome]),rfl⟩))
    · rename_i ready job outcome
      cases thrown
      exact .inr (.inr (.inr ⟨connected (by simp [outcome]),ready,job,outcome,.inl ⟨rfl,rfl⟩⟩))
    · rename_i ready job outcome
      cases thrown
      exact .inr (.inr (.inr ⟨connected (by simp [outcome]),ready,job,outcome,.inr ⟨rfl,rfl⟩⟩))
    · cases thrown

-- It has reset the worker, and started nothing.
theorem thrownBake_worker {stop : BakeStop} (thrown : thrownBake host disk validated stop node = some after) :
    node.rt.worker.state ≠ .running ∧ after.rt.worker = node.rt.worker.reset := by
  obtain ⟨stopped,left⟩ := thrownBake_cases thrown
  have prepared := (prepareBake_same host disk validated stopped).worker
  have pressed : (pressNode host disk validated node).rt.worker = node.rt.worker.reset :=
    (revalidate_idle (setKnobs (setWorker node node.rt.worker.reset) (pressKnobs host node))
      (AiWorker.reset_idle stopped)).worker
  refine ⟨stopped,?_⟩
  rcases left with ⟨_,rfl⟩ | ⟨_,_,rfl⟩ | ⟨_,_,rfl⟩ | ⟨_,ready,job,outcome,⟨_,rfl⟩ | ⟨_,rfl⟩⟩
  · rfl
  · exact pressed
  · exact pressed
  · exact pressed
  · rw [outcome] at prepared
    exact prepared

theorem thrownBake_idle {stop : BakeStop} (coherent : node.rt.worker.Coherent)
    (thrown : thrownBake host disk validated stop node = some after) :
    after.rt.worker.Coherent ∧ after.rt.worker.state = .idle := by
  obtain ⟨stopped,worker⟩ := thrownBake_worker thrown
  rw [worker]
  exact ⟨AiWorker.reset_coherent coherent,AiWorker.reset_idle stopped⟩

theorem startBake_logged {ok : BakeJob FillTask → Prop} {bakes : List (Written FillTask)}
    (logged : node.rt.worker.Logged (backend host) ok bakes)
    (valid : ∀ after job, prepareBake host disk validated node = .ready after job → ok job) :
    (startBake host disk validated node).rt.worker.Logged (backend host) ok bakes := by
  rcases startBake_cases host disk validated node with ⟨_,said⟩ | ⟨_,same⟩ | ⟨after,job,ready,same,started⟩
  · rw [said]
    exact logged
  · rw [same.worker]
    exact logged_reset logged
  · rw [started]
    refine logged_launch ?_ (valid after job ready)
    rw [same.worker]
    exact logged_reset logged

theorem clearCacheDir_same (refused : Path → Bool) :
    SameBake node.rt (clearCacheDir host refused node disk).1.rt := by
  unfold clearCacheDir
  dsimp only
  split
  · exact ⟨rfl,rfl⟩
  · split <;> exact ⟨rfl,rfl⟩

variable {s next : State} {action : Action}

theorem validate_owned (owned : node.rt.Owned) : (validate host disk thrown node).rt.Owned :=
  validate_rt Owned (fun _ => owned_poll) (fun _ _ quiet owned => owned_same owned quiet.toSameBake) owned

theorem validate_announced (announced : node.rt.Announced) : (validate host disk thrown node).rt.Announced :=
  validate_rt Announced (fun _ => announced_poll) (fun _ _ quiet announced => announced_quiet announced quiet) announced

theorem validate_logged {ok : BakeJob FillTask → Prop} {bakes : List (Written FillTask)}
    (logged : node.rt.worker.Logged (backend host) ok bakes) :
    (validate host disk thrown node).rt.worker.Logged (backend host) ok bakes :=
  validate_rt (fun rt => rt.worker.Logged (backend host) ok bakes) (fun _ => logged_poll)
    (fun _ _ quiet logged => logged_same logged quiet.toSameBake) logged

theorem step_work {w : WorkStep} (ran : step host s (.work w) = some next) :
    ∃ worker disk wrote, workStep (backend host) s.node.rt.worker s.disk w = some (worker,disk,wrote) ∧
      next = ⟨setWorker s.node worker,disk,wrote.toList ++ s.bakes⟩ := by
  simp only [step] at ran
  split at ran
  · cases ran
  · rename_i worker disk wrote worked
    cases ran
    exact ⟨worker,disk,wrote,worked,rfl⟩

theorem step_thrown {stop : BakeStop} (ran : step host s (.bakeThrown validated stop) = some next) :
    ∃ after, thrownBake host s.disk validated stop s.node = some after ∧ next = ⟨after,s.disk,s.bakes⟩ := by
  obtain ⟨after,thrown,rfl⟩ := Option.map_eq_some_iff.mp ran
  exact ⟨after,thrown,rfl⟩

theorem step_owned (owned : s.node.rt.Owned) (ran : step host s action = some next) : next.node.rt.Owned := by
  cases action with
  | work w =>
    obtain ⟨worker,disk,wrote,worked,rfl⟩ := step_work ran
    exact owned_work owned worked
  | validate thrown =>
    cases ran
    exact validate_owned owned
  | bake validated =>
    cases ran
    exact startBake_owned owned
  | bakeThrown validated stop =>
    obtain ⟨after,thrown,rfl⟩ := step_thrown ran
    obtain ⟨coherent,idle⟩ := thrownBake_idle owned.1 thrown
    exact owned_idle coherent idle
  | clearCache refused =>
    cases ran
    exact owned_same owned (clearCacheDir_same refused)
  | edit _ | connect _ _ | files _ | cancel =>
    cases ran
    exact owned

theorem reached_owned (path : Reached (system host) s) : s.node.rt.Owned := by
  refine Reached.invariant (fun s => s.node.rt.Owned) path ?_ (fun _ _ _ => step_owned)
  intro s start
  rcases start with ⟨disk,rfl⟩
  exact owned_fresh _

-- The worker's job and every write have a property of jobs as soon as every
-- press that starts a job gives it the property.
theorem step_logged {ok : BakeJob FillTask → Prop} (logged : s.node.rt.worker.Logged (backend host) ok s.bakes)
    (valid : ∀ validated after job, action = .bake validated →
      prepareBake host s.disk validated s.node = .ready after job → ok job)
    (ran : step host s action = some next) : next.node.rt.worker.Logged (backend host) ok next.bakes := by
  cases action with
  | work w =>
    obtain ⟨worker,disk,wrote,worked,rfl⟩ := step_work ran
    exact AiWorker.logged_work logged worked
  | validate thrown =>
    cases ran
    exact validate_logged logged
  | bake validated =>
    cases ran
    exact startBake_logged logged (fun after job ready => valid validated after job rfl ready)
  | bakeThrown validated stop =>
    obtain ⟨after,thrown,rfl⟩ := step_thrown ran
    show after.rt.worker.Logged (backend host) ok s.bakes
    rw [(thrownBake_worker thrown).2]
    exact logged_reset logged
  | clearCache refused =>
    cases ran
    exact logged_same logged (clearCacheDir_same refused)
  | cancel =>
    cases ran
    exact ⟨AiWorker.carries_cancel logged.carries,logged.writes⟩
  | edit _ | connect _ _ | files _ =>
    cases ran
    exact logged

theorem guarded_logged {allowed : State → Action → Prop} {ok : BakeJob FillTask → Prop}
    (path : Guarded (system host) allowed s)
    (valid : ∀ s validated after job, allowed s (.bake validated) →
      prepareBake host s.disk validated s.node = .ready after job → ok job) :
    s.node.rt.worker.Logged (backend host) ok s.bakes := by
  refine Guarded.keeps (fun s => s.node.rt.worker.Logged (backend host) ok s.bakes) path ?_ ?_
  · intro s start
    rcases start with ⟨disk,rfl⟩
    exact AiWorker.logged_fresh
  · intro s action next logged permitted ran
    refine step_logged logged ?_ ran
    intro validated after job pressed ready
    cases pressed
    exact valid s validated after job permitted ready

section Completion
variable {allowed : State → Action → Prop} {context : AiWorkerContext} {err : Bytes} {pixels : List F32}
  {faults : ImageCache.Faults} {bakes : List (Written FillTask)}

def working (node : Node) (disk : Files) (bakes : List (Written FillTask)) (context : AiWorkerContext) (err : Bytes)
    (run : BakeRun FillTask) : State :=
  ⟨setWorker node ⟨.running,context,err,.body run⟩,disk,bakes⟩

structure Started (host : Host) (disk : Files) (validated : Option (Option Stop)) (before after : Node) : Prop where
  source : after.source = before.source
  mask : after.mask = before.mask
  knobs : after.knobs = pressKnobs host before
  session : after.session = some (before.session.getD (wantedSession (pressKnobs host before)))
  bakingKey : after.rt.bakingKey = pressKey host before
  cache : after.rt.cache = (pressNode host disk validated before).rt.cache
  statusText : after.rt.statusText = ascii "Cooking 0%"

theorem started_key {before : Node} (started : Started host disk validated before after) :
    pressKey host after = pressKey host before := by
  refine computeCacheKey_congr started.source started.mask ?_
  show resolveDefaultPaths host after.knobs = pressKnobs host before
  rw [started.knobs]
  exact resolve_resolved _

theorem started_path {before : Node} (started : Started host disk validated before after) :
    pressPath host after = pressPath host before := by
  rw [pressPath,pressPath,started_key started]
  refine resultPath_congr ?_
  show resolveDefaultPaths host after.knobs = pressKnobs host before
  rw [started.knobs]
  exact resolve_resolved _

theorem bake_starts (validated : Option (Option Stop)) {source mask : Input} (path : Guarded (system host) allowed s)
    (permitted : allowed s (.bake validated)) (stopped : s.node.rt.worker.state ≠ .running)
    (passes : InputsPass s.node source mask) (absent : fileExists s.disk (pressPath host s.node) = false) :
    ∃ (node : Node) (err : Bytes), Started host s.disk validated s.node node ∧
      Guarded (system host) allowed (working node s.disk s.bakes ⟨F32.zero,false,ascii "Starting"⟩ err
        ⟨pressJob host s.node source mask,taskOps,none⟩) := by
  have outcome := prepareBake_passes host s.disk validated stopped passes
  rw [if_neg (by simp [absent])] at outcome
  have idle := ready_idle outcome
  have started : startBake host s.disk validated s.node = _ := startBake_miss stopped passes absent
  have worker : (startBake host s.disk validated s.node).rt.worker =
      ⟨.running,⟨F32.zero,false,ascii "Starting"⟩,(pressNode host s.disk validated s.node).rt.worker.errorMessage,
        .body ⟨pressJob host s.node source mask,taskOps,none⟩⟩ := by
    rw [started]
    exact congrArg Prod.fst (AiWorker.start_idle idle _)
  refine ⟨startBake host s.disk validated s.node,(pressNode host s.disk validated s.node).rt.worker.errorMessage,?_,
    path.step permitted ?_⟩
  · rw [started]
    exact ⟨pressNode_press.source,pressNode_press.mask,pressNode_knobs,rfl,rfl,rfl,rfl⟩
  · rw [working,← worker]
    rfl

def wroteJob (faults : ImageCache.Faults) (job : BakeJob FillTask) (pixels : List F32) (disk : Files) : Written FillTask :=
  ⟨⟨job,[.write,.setProgress F32.one],some pixels⟩,pixels,true,
    (writeRun faults job pixels disk).final.read job.path⟩

theorem working_status {text : Bytes} {rest : List TaskOp} {made : Option (List F32)}
    (free : ∀ s w, allowed s (.work w))
    (path : Guarded (system host) allowed (working node disk bakes context err ⟨job,.setStatusText text :: rest,made⟩)) :
    Guarded (system host) allowed (working node disk bakes {context with statusText := text} err ⟨job,rest,made⟩) :=
  .step path (free _ .next) rfl

theorem working_progress {p : F32} {rest : List TaskOp} {made : Option (List F32)}
    (free : ∀ s w, allowed s (.work w))
    (path : Guarded (system host) allowed (working node disk bakes context err ⟨job,.setProgress p :: rest,made⟩)) :
    Guarded (system host) allowed (working node disk bakes (context.setProgress p) err ⟨job,rest,made⟩) :=
  .step path (free _ .next) rfl

theorem bake_produces (free : ∀ s w, allowed s (.work w))
    (path : Guarded (system host) allowed (working node disk bakes context err ⟨job,taskOps,none⟩))
    (made : backend host job.task 0 none = .ok pixels) :
    ∃ later : AiWorkerContext, later.cancelRequest = context.cancelRequest ∧ Guarded (system host) allowed
      (working node disk bakes later err ⟨job,[.write,.setProgress F32.one],some pixels⟩) := by
  have inferencing := working_status free (working_progress free (working_status free path))
  have produced := inferencing.step (free _ (.produce 0 none))
    (show _ = some (working node disk bakes _ err ⟨job,_,some pixels⟩) by
      simp only [system,step,working,workStep,setWorker,made]
      rfl)
  have writing := working_progress free (working_status free produced)
  refine ⟨_,?_,writing⟩
  rfl

theorem press_running (validated : Option (Option Stop)) (path : Guarded (system host) allowed s)
    (permitted : allowed s (.bake validated))
    (running : s.node.rt.worker.state = .running) :
    Guarded (system host) allowed {s with node := setStatus s.node (ascii "Already cooking")} := by
  refine path.act (.bake validated) permitted ?_
  simp only [system,step,startBake,prepareBake_running running]

theorem bake_fails (free : ∀ s w, allowed s (.work w)) {run : BakeRun FillTask}
    (path : Guarded (system host) allowed (working node disk bakes context err run)) (msg : Bytes) :
    Guarded (system host) allowed ⟨setWorker node ⟨.error,context,msg,.exited run⟩,disk,bakes⟩ := by
  have thrown : Guarded (system host) allowed ⟨setWorker node ⟨.running,context,err,.ended run .error msg⟩,disk,bakes⟩ :=
    path.step (free _ (.throws msg)) rfl
  have stored : Guarded (system host) allowed ⟨setWorker node ⟨.running,context,msg,.publishing run .error⟩,disk,bakes⟩ :=
    thrown.step (free _ .storeError) rfl
  exact stored.step (free _ .publish) rfl

theorem bake_completes (free : ∀ s w, allowed s (.work w))
    (path : Guarded (system host) allowed (working node disk bakes context err ⟨job,taskOps,none⟩))
    (made : backend host job.task 0 none = .ok pixels)
    (alone : context.cancelRequest = false) (wrote : (writeRun faults job pixels disk).ok = true) :
    ∃ worker, worker.state = .done ∧ Guarded (system host) allowed
      ⟨setWorker node worker,(writeRun faults job pixels disk).final,wroteJob faults job pixels disk :: bakes⟩ := by
  obtain ⟨later,same,writing⟩ := bake_produces free path made
  have written : Guarded (system host) allowed (working node (writeRun faults job pixels disk).final
      (wroteJob faults job pixels disk :: bakes) later err ⟨job,[.setProgress F32.one],some pixels⟩) := by
    refine writing.step (free _ (.write faults)) ?_
    simp only [system,step,working,workStep,setWorker,wrote,if_true]
    rfl
  let ended (thread : Thread (BakeRun FillTask)) : State :=
    ⟨setWorker node ⟨.running,later.setProgress F32.one,err,thread⟩,(writeRun faults job pixels disk).final,
      wroteJob faults job pixels disk :: bakes⟩
  have returned : Guarded (system host) allowed
      (ended (.ended ⟨job,[],some pixels⟩ (finalState (later.setProgress F32.one)) [])) :=
    (working_progress free written).step (free _ .returns) rfl
  have final : finalState (later.setProgress F32.one) = .done := by
    simp [finalState,AiWorkerContext.setProgress,same,alone]
  rw [final] at returned
  have stored : Guarded (system host) allowed (ended (.publishing ⟨job,[],some pixels⟩ .done)) :=
    returned.step (free _ .storeError) rfl
  exact ⟨_,rfl,stored.step (free _ .publish) rfl⟩

end Completion

def blackPixel : Input := ⟨7,true,⟨0,0,1,1⟩,1,1,fun _ _ _ => F32.zero⟩

def blackModel : Onnx F32 := ⟨fun _ => .ok (2,1),fun _ _ _ _ => .ok [⟨LamaSession.expectedShape,[]⟩]⟩

def plainRounding : Rounding :=
  ⟨fun _ => F32.zero,fun x _ => x,fun x _ => x,fun x _ => x,fun x _ => x,fun _ => 0,fun _ => 0,fun _ => 0⟩

def blackHost : Host := ⟨plainRounding,blackModel,ascii "/c",ascii "/p"⟩

theorem blackModel_answers (session : LamaSession) (call : Nat) (img msk : List F32) :
    LamaSession.run plainRounding.ops blackModel session call img msk =
      .ok (LamaSession.outHwc plainRounding.ops []) := by
  have loaded : LamaSession.ensureInitialized blackModel session = .ok () := rfl
  unfold LamaSession.run
  rw [loaded,LamaTiler.ok_bind]
  simp only [blackModel,if_true]
  rfl

theorem blackHost_bakes (task : FillTask) (one : task.width = 1 ∧ task.height = 1) :
    ∃ pixels : List F32, pixels.length = 3 ∧ backend blackHost task 0 none = .ok pixels := by
  obtain ⟨pixels,length,answered⟩ : ∃ pixels : List F32, pixels.length = 3 ∧
      LamaTiler.inpaintImage plainRounding.ops (LamaSession.run plainRounding.ops blackModel task.session 0)
        task.rgb task.mask 1 1 (fun _ => true) = .ok pixels := by
    refine ⟨_,?_,LamaTiler.inpaintImage_small ⟨by decide,by decide⟩ (by decide) (by decide)
      (blackModel_answers task.session 0)⟩
    rw [LamaTiler.compositeMasked_length]
    rfl
  refine ⟨pixels,length,?_⟩
  simp only [backend,one.1,one.2,reduceCtorEq,ne_eq,not_false_eq_true,decide_true]
  exact answered

def blackNode (modelPath : Bytes) (node : Node) : Node :=
  {node with source := some blackPixel,mask := some blackPixel,knobs := ⟨F32.half,1,modelPath,[]⟩}

theorem blackNode_passes (modelPath : Bytes) (node : Node) :
    InputsPass (blackNode modelPath node) blackPixel blackPixel :=
  ⟨⟨rfl,rfl⟩,by decide,by decide⟩

theorem fileExists_empty (p : Path) : fileExists Disk.empty p = false := by
  simp [fileExists,Disk.present,Disk.empty,Disk.read]

def blackStart : State := ⟨blackNode (ascii "a") fresh,Disk.empty,[]⟩

theorem blackNode_reached {allowed : State → Action → Prop}
    (connects : ∀ s, allowed s (.connect (some blackPixel) (some blackPixel)))
    (edits : ∀ s k, allowed s (.edit k)) : Guarded (system blackHost) allowed blackStart := by
  have start : Guarded (system blackHost) allowed ⟨fresh,Disk.empty,[]⟩ := .initial ⟨Disk.empty,rfl⟩
  exact (start.step (connects _) rfl).step (edits _ ⟨F32.half,1,ascii "a",[]⟩) rfl

theorem blackStart_works {allowed : State → Action → Prop} (path : Guarded (system blackHost) allowed blackStart)
    (permitted : allowed blackStart (.bake none)) :
    ∃ (node : Node) (err : Bytes), Started blackHost Disk.empty none blackStart.node node ∧
      Guarded (system blackHost) allowed (working node Disk.empty [] ⟨F32.zero,false,ascii "Starting"⟩ err
        ⟨pressJob blackHost blackStart.node blackPixel blackPixel,taskOps,none⟩) :=
  bake_starts none path permitted (by decide) (blackNode_passes _ fresh) (fileExists_empty _)

section Baked
open ImageCache
variable {allowed : State → Action → Prop} {disk : Files} {node : Node} {pixels : List F32}

-- One bake of a black pixel, up to where its worker is done.
theorem blackStart_bakes (path : Guarded (system blackHost) allowed blackStart) (permitted : allowed blackStart (.bake none))
    (works : ∀ s w, allowed s (.work w)) : ∃ (node : Node) (worker : AiWorker (BakeRun FillTask)) (disk : Files)
      (b : Written FillTask) (pixels : List F32), Started blackHost Disk.empty none blackStart.node node ∧
        worker.state = .done ∧ Guarded (system blackHost) allowed ⟨setWorker node worker,disk,[b]⟩ ∧ b.ok = true ∧
        b.run.job = pressJob blackHost blackStart.node blackPixel blackPixel ∧ pixels.length = 3 ∧
        b.content = some (encoding pixels 1 1 3) ∧ disk.read (pressPath blackHost blackStart.node) = b.content := by
  obtain ⟨node,err,started,working⟩ := blackStart_works path permitted
  obtain ⟨pixels,length,made⟩ := blackHost_bakes (pressJob blackHost blackStart.node blackPixel blackPixel).task ⟨rfl,rfl⟩
  obtain ⟨n,whole,written⟩ : ∃ n, (encoding pixels 1 1 3).take n = encoding pixels 1 1 3 ∧
      (writeRun (noFaults n) (pressJob blackHost blackStart.node blackPixel blackPixel) pixels Disk.empty).ok = true := by
    refine ⟨_,List.take_length,?_⟩
    rw [writeRun,imageCacheWrite_accepted (by rfl)]
    rfl
  obtain ⟨worker,done,finished⟩ := bake_completes works working made rfl written
  exact ⟨node,worker,_,_,pixels,started,done,finished,rfl,rfl,length,
    (imageCacheWrite_content written).2.trans (congrArg some whole),rfl⟩

theorem blackStart_loads (started : Started blackHost Disk.empty none blackStart.node node) (length : pixels.length = 3)
    (file : disk.read (pressPath blackHost blackStart.node) = some (encoding pixels 1 1 3))
    (worker : AiWorker (BakeRun FillTask)) :
    ∃ l : Loaded extension, (validate blackHost disk none (setWorker node worker)).rt.cache = l.buffer ∧
      l.content = some (encoding pixels 1 1 3) := by
  have path : pressPath blackHost (setWorker node worker) = pressPath blackHost blackStart.node := by
    have same := started_path started
    exact same
  have named : pressPath blackHost blackStart.node ≠ [] := by
    rw [pressPath,resultPath_cachePath (pressKey_nonempty _ _)]
    exact cachePath_nonempty (by decide)
  have present : fileExists disk (pressPath blackHost (setWorker node worker)) = true := by
    rw [path]
    simp [fileExists,named,Disk.present,file]
  have readable : (imageCacheRead (disk.read (pressPath blackHost (setWorker node worker)))).ok = true := by
    rw [path,file,read_encoding (by decide) length]
  have empty : (setWorker node worker).rt.cache = .cleared := started.cache
  obtain ⟨l,loaded,_,same⟩ := validate_loads empty present readable
  exact ⟨l,loaded,by rw [same,path,file]⟩

end Baked

end SmartFill.AISmartFill
