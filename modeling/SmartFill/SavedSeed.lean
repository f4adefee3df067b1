import SmartFill.SavedScript

namespace SmartFill.AIGenerate
open Transition

variable {host : Host} {disk : Files} {node : Node} {thrown : Option Stop} {chance : Chance}

-- The first _validate of the node created from the saved script has the key of
-- the node that was saved, and loads its file if that can be shown at all.
structure Found (host : Host) (disk : Files) (saved : Node) : Prop where
  key : (validate host disk none (reopenedNode saved)).rt.currentKey = computeCacheKey host disk saved
  loaded : FileUsable host disk saved (computeCacheKey host disk saved) →
    ∃ l : Loaded extension, (validate host disk none (reopenedNode saved)).rt.cache = l.buffer ∧
      l.key = computeCacheKey host disk saved ∧
      l.content = disk.read (resultPath host disk saved (computeCacheKey host disk saved))

-- The resolved seed is the one field of the key that no knob restores.
theorem reopened_fields_iff (host : Host) (disk : Files) (saved : Node) :
    keyFields host disk (reopenedNode saved) = keyFields host disk saved ↔ saved.lastResolvedSeed = 0 := by
  constructor
  · intro same
    simp only [keyFields,List.append_assoc,List.cons_append,List.nil_append,List.cons.injEq,Field.int64.injEq] at same
    exact same.2.2.2.2.2.2.2.2.1.symm
  · intro zero
    have knobs : (reopenedNode saved).knobs = saved.knobs := rfl
    have inputs : (reopenedNode saved).source = saved.source ∧ (reopenedNode saved).control = saved.control := ⟨rfl,rfl⟩
    have seed : (reopenedNode saved).lastResolvedSeed = saved.lastResolvedSeed := zero.symm
    simp only [keyFields,nodeLoras,nodePaths,knobs,inputs,seed]

theorem reopened_found (zero : node.lastResolvedSeed = 0) : Found host disk node := by
  have key : computeCacheKey host disk (reopenedNode node) = computeCacheKey host disk node := by
    rw [computeCacheKey,(reopened_fields_iff host disk node).mpr zero,computeCacheKey]
  refine ⟨validate_currentKey.trans key,?_⟩
  intro usable
  have named : computeCacheKey host disk node ≠ [] := cacheKey_nonempty _
  have other : (pollWorker host (reopenedNode node)).rt.cache.loadedKey ≠ computeCacheKey host disk node := named.symm
  have path : resultPath host disk (pollWorker host (reopenedNode node)) (computeCacheKey host disk node) =
      resultPath host disk node (computeCacheKey host disk node) := rfl
  obtain ⟨l,loaded,same,content⟩ := loadedCache_usable named other
    (show FileUsable host disk (pollWorker host (reopenedNode node)) _ from ⟨usable.exists_,usable.ok,usable.image⟩)
  refine ⟨l,?_,same,content.trans (by rw [path])⟩
  rw [validate_cache,key]
  exact loaded

-- A press that gets as far as resolve_seed resolves to 0.
def ResolvesZero (host : Host) (s : State) : ScriptAction Action → Prop
  | .op (.bake chance) => s.node.rt.worker.state ≠ .running → InputsPass host s.disk chance s.node →
      (if 0 ≤ s.node.knobs.seed then s.node.knobs.seed.toInt64 else chance.draw) = 0
  | _ => True

theorem validate_seed : (validate host disk thrown node).lastResolvedSeed = node.lastResolvedSeed := by
  unfold validate
  dsimp only
  split
  · rfl
  · split
    · rfl
    · split <;> rfl

theorem prepareBake_seed (host : Host) (disk : Files) (chance : Chance) (node : Node) :
    (prepareBake host disk chance node).1.node.lastResolvedSeed = node.lastResolvedSeed ∨
    (node.rt.worker.state ≠ .running ∧ InputsPass host disk chance node ∧
      (prepareBake host disk chance node).1.node.lastResolvedSeed = (resolveSeed chance node).lastResolvedSeed) := by
  by_cases running : node.rt.worker.state = .running
  · rw [prepareBake_running running]
    exact .inl rfl
  · cases accepted : refusal host disk node with
    | some status =>
      simp only [prepareBake,if_neg running,accepted]
      exact .inl rfl
    | none =>
      cases read : readImages host disk chance node with
      | error status =>
        simp only [prepareBake,if_neg running,accepted,read]
        exact .inl rfl
      | ok images =>
        refine .inr ⟨running,⟨accepted,images,read⟩,?_⟩
        rw [prepareBake_passes running accepted read]
        split <;> rfl

theorem startBake_seed (host : Host) (disk : Files) (chance : Chance) (node : Node) :
    (startBake host disk chance node).1.lastResolvedSeed =
      (prepareBake host disk chance node).1.node.lastResolvedSeed := by
  rw [startBake]
  cases prepareBake host disk chance node with
  | mk result made => cases result <;> rfl

theorem step_seed {s next : State} {action : Action} (zero : s.node.lastResolvedSeed = 0)
    (resolves : ResolvesZero host s (.op action)) (ran : step host s action = some next) :
    next.node.lastResolvedSeed = 0 := by
  cases action with
  | work w =>
    obtain ⟨worker,disk,wrote,_,rfl⟩ := step_work ran
    exact zero
  | validate thrown =>
    cases ran
    exact validate_seed.trans zero
  | bake chance =>
    cases ran
    show (startBake host s.disk chance s.node).1.lastResolvedSeed = 0
    rw [startBake_seed]
    rcases prepareBake_seed host s.disk chance s.node with same | ⟨stopped,passes,resolved⟩
    · exact same.trans zero
    · exact resolved.trans (resolves stopped passes)
  | clearCache refused =>
    cases ran
    show (clearCacheOnDisk host refused s.node s.disk).1.lastResolvedSeed = 0
    unfold clearCacheOnDisk
    dsimp only
    split
    · exact zero
    · split <;> exact zero
  | edit _ | connect _ _ | files _ | cancel =>
    cases ran
    exact zero

theorem guarded_seed {s : State} (path : Guarded (scripts host) (ResolvesZero host) s) :
    s.node.lastResolvedSeed = 0 := by
  refine Guarded.keeps (fun s => s.node.lastResolvedSeed = 0) path ?_ ?_
  · rintro s ⟨disk,rfl⟩
    rfl
  · intro s action next zero resolves ran
    cases action with
    | op action => exact step_seed zero resolves ran
    | reopen =>
      cases ran
      rfl

theorem reopened_finds (host : Host) :
    (∀ s, Reached (scripts host) s →
      (keyFields host s.disk (reopenedNode s.node) = keyFields host s.disk s.node ↔ s.node.lastResolvedSeed = 0)) ∧
    (∀ s, Guarded (scripts host) (ResolvesZero host) s → Found host s.disk s.node) :=
  ⟨fun s _ => reopened_fields_iff host s.disk s.node,fun _ path => reopened_found (guarded_seed path)⟩

-- A backend that paints the whole image black.
def paint : Backend SdJob := fun job _ _ =>
  Except.ok (List.replicate (job.params.width.toInt*job.params.height.toInt*3).toNat F32.zero)

def paintHost : Host := {sdHost with backend := paint}

def zeroNode : Node := {fresh with knobs := {sdKnobs (ascii "x") with width := 64,height := 64,seed := 0}}

theorem zeroNode_paths (disk : Files) {node : Node} (knobs : node.knobs = zeroNode.knobs) :
    nodePaths paintHost disk node = ⟨[],sdModel,[],[],[],ascii "/c",ascii "/loras",[]⟩ := by
  rw [nodePaths,knobs]
  rfl

theorem zeroNode_launches : Launches paintHost sdDisk sdChance zeroNode := by
  refine ⟨by decide,⟨?_,⟨RgbImage.none,RgbImage.none⟩,?_⟩,?_⟩
  · simp only [refusal,zeroNode_paths sdDisk rfl,show fileExists sdDisk sdModel = true by decide]
    rfl
  · simp only [readImages,zeroNode_paths sdDisk rfl]
    rfl
  · have knobs : (pressNode sdChance zeroNode).knobs = zeroNode.knobs := rfl
    rw [pressDisk,makeCacheDir,if_pos (.inr rfl),pressPath,resultPath,zeroNode_paths sdDisk knobs]
    exact sdDisk_absent cachePath_other

-- One bake with the seed 0, whose file is on the disk.
theorem zeroNode_bakes {allowed : State → Action → Prop} (edits : ∀ s k, allowed s (.edit k))
    (works : ∀ s w, allowed s (.work w)) (presses : allowed ⟨zeroNode,sdDisk,[]⟩ (.bake sdChance)) :
    ∃ (images : RgbImage × RgbImage) (worker : AiWorker (BakeRun SdJob)) (disk : Files) (b : Written SdJob),
      worker.state = .done ∧
      Guarded (system paintHost) allowed ⟨setWorker (launched paintHost sdDisk sdChance zeroNode images) worker,disk,[b]⟩ ∧
      b.run.job = pressJob paintHost sdDisk sdChance zeroNode images ∧
      disk.read (pressPath paintHost sdDisk sdChance zeroNode) =
        some (ImageCache.encoding (List.replicate (64*64*3) F32.zero) 64 64 3) := by
  have start : Guarded (system paintHost) allowed ⟨fresh,sdDisk,[]⟩ := .initial ⟨sdDisk,rfl⟩
  have edited : Guarded (system paintHost) allowed ⟨zeroNode,sdDisk,[]⟩ :=
    start.act (.edit zeroNode.knobs) (edits _ _) rfl
  obtain ⟨images,_,working⟩ := bake_starts edited presses rfl zeroNode_launches
  let pixels := List.replicate (64*64*3) F32.zero
  have made : paintHost.backend (pressJob paintHost sdDisk sdChance zeroNode images).task 0 none = .ok pixels :=
    congrArg (fun n => Except.ok (List.replicate n F32.zero)) (by rfl)
  obtain ⟨n,whole,written⟩ : ∃ n, (ImageCache.encoding pixels 64 64 3).take n = ImageCache.encoding pixels 64 64 3 ∧
      (writeRun (ImageCache.noFaults n) (pressJob paintHost sdDisk sdChance zeroNode images) pixels
        (pressDisk paintHost sdDisk sdChance zeroNode)).ok = true := by
    refine ⟨_,List.take_length,?_⟩
    rw [writeRun,ImageCache.imageCacheWrite_accepted (by rfl)]
    rfl
  obtain ⟨worker,done,finished⟩ := bake_completes works working made rfl written
  exact ⟨images,worker,_,_,done,finished,rfl,(ImageCache.imageCacheWrite_content written).2.trans (congrArg some whole)⟩

theorem reopened_finds_baked : ∃ (s : State) (l : Loaded extension),
    Guarded (scripts paintHost) (ResolvesZero paintHost) s ∧ s.bakes ≠ [] ∧
    (validate paintHost s.disk none (reopenedNode s.node)).rt.cache = l.buffer ∧ Found paintHost s.disk s.node := by
  let allowed : State → Action → Prop := fun s a => ResolvesZero paintHost s (.op a)
  have presses : allowed ⟨zeroNode,sdDisk,[]⟩ (.bake sdChance) := fun _ _ => rfl
  obtain ⟨images,worker,disk,b,_,path,_,file⟩ :=
    @zeroNode_bakes allowed (fun _ _ => trivial) (fun _ _ => trivial) presses
  have found := (reopened_finds paintHost).2 _ (op_guarded path (fun _ _ => id))
  have key : computeCacheKey paintHost disk (setWorker (launched paintHost sdDisk sdChance zeroNode images) worker) =
      pressKey paintHost sdDisk sdChance zeroNode := by
    unfold computeCacheKey pressKey keyFields nodeLoras
    rfl
  have place : resultPath paintHost disk (setWorker (launched paintHost sdDisk sdChance zeroNode images) worker)
      (pressKey paintHost sdDisk sdChance zeroNode) = pressPath paintHost sdDisk sdChance zeroNode := rfl
  have result := @ImageCache.read_encoding 64 64 3 (List.replicate (64*64*3) F32.zero) (by decide)
    List.length_replicate
  have usable : FileUsable paintHost disk (setWorker (launched paintHost sdDisk sdChance zeroNode images) worker)
      (pressKey paintHost sdDisk sdChance zeroNode) := by
    refine ⟨?_,?_,?_⟩ <;> rw [place]
    · have named : pressPath paintHost sdDisk sdChance zeroNode ≠ [] :=
        cachePath_nonempty (show (nodePaths paintHost sdDisk (pressNode sdChance zeroNode)).cacheDir ≠ [] by decide)
      rw [fileExists,Disk.present,file,decide_eq_true named]
      rfl
    · rw [file,result]
    · rw [file,result]
      rfl
  obtain ⟨l,loaded,_⟩ := found.loaded (key.symm ▸ usable)
  exact ⟨_,l,op_guarded path (fun _ _ => id),List.cons_ne_nil _ _,loaded,found⟩

def seedKey (seed : Int64) : Bytes := computeCacheKey sdHost Disk.empty {sdNode (ascii "x") with lastResolvedSeed := seed}

theorem seedKeys_differ : seedKey 0 ≠ seedKey 5 := by decide +kernel

-- One bake with a random seed: the panel still shows it, the key has 0 for it.
theorem reopened_loses : ¬ ∀ host s, Reached (scripts host) s → Found host s.disk s.node := by
  intro claim
  have start : Reached (system sdHost) sdStart := sdStart_reached (fun _ _ => trivial)
  have pressed := start.act (.bake sdChance) trivial rfl
  have path : Reached (scripts sdHost) _ := op_guarded pressed (fun _ _ _ => trivial)
  have found := (claim _ _ path).key
  rw [validate_currentKey] at found
  obtain ⟨images,_,started⟩ := startBake_launches sdStart_launches
  have node : (startBake sdHost sdDisk sdChance sdStart.node).1 = launched sdHost sdDisk sdChance sdStart.node images :=
    congrArg Prod.fst started
  have reopened : ∀ disk, computeCacheKey sdHost disk (reopenedNode (launched sdHost sdDisk sdChance sdStart.node images)) =
      seedKey 0 := by
    intro disk
    exact (sdNode_key disk Disk.empty rfl).trans (computeCacheKey_congr rfl rfl rfl rfl)
  have baked : ∀ disk, computeCacheKey sdHost disk (launched sdHost sdDisk sdChance sdStart.node images) = seedKey 5 := by
    intro disk
    exact (sdNode_key disk Disk.empty rfl).trans (computeCacheKey_congr rfl rfl rfl rfl)
  have same : seedKey 0 = seedKey 5 := by
    rw [← reopened _,← baked _,← node]
    exact found
  exact seedKeys_differ same

end SmartFill.AIGenerate
