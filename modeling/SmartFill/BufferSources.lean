import SmartFill.AISmartFillRuns
import SmartFill.AIGenerateRuns

namespace SmartFill
open Transition ImageCache

-- What one call leaves of the buffer: nothing changed, all of it cleared, or
-- what a read in this directory returned.
def Brings {e : Bytes} (dir : Bytes) (disk : Files) (before after : CacheBuffer e) : Prop :=
  after = before ∨ after = .cleared ∨
    ∃ l : Loaded e, after = l.buffer ∧ l.dir = dir ∧ l.disk = disk ∧ ∃ fields, l.key = cacheKey fields

namespace Brings
variable {e dir : Bytes} {disk : Files}

theorem same {before after : CacheBuffer e} (same : after = before) : Brings dir disk before after := .inl same

theorem emptied {before : CacheBuffer e} : Brings dir disk before .cleared := .inr (.inl rfl)

theorem trans {a b c : CacheBuffer e} (first : Brings dir disk a b) (later : Brings dir disk b c) : Brings dir disk a c := by
  rcases later with rfl | cleared | read
  · exact first
  · exact .inr (.inl cleared)
  · exact .inr (.inr read)

theorem load {accepts : ImageCacheReadResult → Bool} {fields : List Field} {before default : CacheBuffer e}
    (otherwise : Brings dir disk before default) :
    Brings dir disk before ((CacheBuffer.load accepts dir (cacheKey fields) disk).getD default) := by
  cases loaded : (CacheBuffer.load accepts dir (cacheKey fields) disk : Option (CacheBuffer e)) with
  | none => exact otherwise
  | some b =>
    obtain ⟨l,rfl,sameDir,key,sameDisk,_⟩ := CacheBuffer.load_some loaded
    exact .inr (.inr ⟨l,rfl,sameDir,sameDisk,fields,key⟩)

theorem poll {T : Type} {r : Rounding} {stale : CacheBuffer e → Bytes → Bool} (rt : Runtime T e) :
    Brings dir disk rt.cache (rt.pollWorker r stale).cache := by
  rw [Runtime.poll_cache]
  split
  · exact emptied
  · exact same rfl

end Brings

-- The buffer is empty, or one of the states seen had the file it was read from.
def ReadIn {S : Type} {e : Bytes} (dir : S → Bytes) (disk : S → Files) (seen : S → Prop) (b : CacheBuffer e) : Prop :=
  b = .cleared ∨ ∃ s, seen s ∧ ∃ l : Loaded e,
    b = l.buffer ∧ l.dir = dir s ∧ l.disk = disk s ∧ ∃ fields, l.key = cacheKey fields

theorem Brings.readIn {S : Type} {e : Bytes} {dir : S → Bytes} {disk : S → Files} {seen : S → Prop} {next : S}
    {before after : CacheBuffer e} (brings : Brings (dir next) (disk next) before after)
    (earlier : ReadIn dir disk seen before) (now : seen next) : ReadIn dir disk seen after := by
  rcases brings with rfl | rfl | ⟨l,loaded⟩
  · exact earlier
  · exact .inl rfl
  · exact .inr ⟨next,now,l,loaded⟩

namespace AISmartFill
variable {host : Host} {disk : Files} {node : Node}

def State.cacheDir (s : State) : Bytes := normalizePath s.node.knobs.cacheDir

theorem loadedCache_brings (fields : List Field) : Brings (normalizePath node.knobs.cacheDir) disk node.rt.cache
    (loadedCache disk (cacheKey fields) node) := by
  unfold loadedCache
  split
  · exact .emptied
  · split
    · exact .same rfl
    · split
      · exact .same rfl
      · split
        · exact .emptied
        · exact .load .emptied

theorem validate_brings (thrown : Option Stop) :
    Brings (normalizePath (validate host disk thrown node).knobs.cacheDir) disk node.rt.cache
      (validate host disk thrown node).rt.cache := by
  rw [validate_press.knobs]
  have polled : Brings (normalizePath (resolveDefaultPaths host node.knobs).cacheDir) disk node.rt.cache
      (pollWorker host (enter host node)).rt.cache := .poll (enter host node).rt
  unfold validate
  dsimp only
  split
  · exact .same rfl
  · split
    · exact polled
    · split
      · exact polled
      · exact polled.trans (loadedCache_brings _)

theorem revalidate_brings (validated : Option (Option Stop)) :
    Brings (normalizePath (revalidate host disk validated node).knobs.cacheDir) disk node.rt.cache
      (revalidate host disk validated node).rt.cache := by
  unfold revalidate
  split
  · exact .same rfl
  · exact validate_brings _

theorem prepareBake_brings (validated : Option (Option Stop)) :
    Brings (normalizePath (prepareBake host disk validated node).node.knobs.cacheDir) disk node.rt.cache
      (prepareBake host disk validated node).node.rt.cache := by
  unfold prepareBake
  split
  · exact .same rfl
  · dsimp only
    split
    · exact .same rfl
    · exact .same rfl
    · have entered := @revalidate_brings host disk (setKnobs (setWorker node node.rt.worker.reset)
        (resolveDefaultPaths host (setWorker node node.rt.worker.reset).knobs)) validated
      split
      · exact entered
      · split
        · exact entered.trans (loadedCache_brings _)
        · split <;> exact entered

theorem startBake_brings (validated : Option (Option Stop)) :
    Brings (normalizePath (startBake host disk validated node).knobs.cacheDir) disk node.rt.cache
      (startBake host disk validated node).rt.cache := by
  have prepared := @prepareBake_brings host disk node validated
  unfold startBake
  split
  all_goals
    rename_i outcome
    rw [outcome] at prepared
    exact prepared

theorem thrownBake_brings {validated : Option (Option Stop)} {stop : BakeStop} {after : Node}
    (thrown : thrownBake host disk validated stop node = some after) :
    Brings (normalizePath after.knobs.cacheDir) disk node.rt.cache after.rt.cache := by
  have prepared := @prepareBake_brings host disk node validated
  have pressed : Brings (normalizePath (pressNode host disk validated node).knobs.cacheDir) disk node.rt.cache
      (pressNode host disk validated node).rt.cache :=
    @revalidate_brings host disk (setKnobs (setWorker node node.rt.worker.reset) (pressKnobs host node)) validated
  obtain ⟨_,⟨_,rfl⟩ | ⟨_,_,rfl⟩ | ⟨_,_,rfl⟩ | ⟨_,ready,job,outcome,⟨_,rfl⟩ | ⟨_,rfl⟩⟩⟩ := thrownBake_cases thrown
  · exact .same rfl
  · exact pressed
  · exact pressed
  · exact pressed
  · rw [outcome] at prepared
    exact prepared

theorem clearCacheDir_brings {dir : Bytes} {disk' : Files} (refused : Path → Bool) :
    Brings dir disk' node.rt.cache (clearCacheDir host refused node disk).1.rt.cache := by
  unfold clearCacheDir
  dsimp only
  split
  · exact .same rfl
  · split
    · exact .same rfl
    · exact .emptied

theorem step_brings {s next : State} {action : Action} (ran : step host s action = some next) :
    Brings next.cacheDir next.disk s.node.rt.cache next.node.rt.cache := by
  cases action with
  | edit _ | connect _ _ | files _ | cancel =>
    cases ran
    exact .same rfl
  | validate thrown =>
    cases ran
    exact validate_brings thrown
  | bake validated =>
    cases ran
    exact startBake_brings validated
  | bakeThrown validated stop =>
    obtain ⟨after,thrown,rfl⟩ := step_thrown ran
    exact thrownBake_brings thrown
  | work w =>
    obtain ⟨worker,disk,wrote,_,rfl⟩ := step_work ran
    exact .same rfl
  | clearCache refused =>
    cases ran
    exact clearCacheDir_brings refused

-- In every run the buffer is what some state of that run had in a file.
theorem run_read {start s : State} {actions : List Action} (initial : (system host).initial start)
    (ran : (system host).run start actions = some s) :
    ReadIn State.cacheDir State.disk (Visited (system host) start actions) s.node.rt.cache := by
  refine Visited.traces (fun seen s => ReadIn State.cacheDir State.disk seen s.node.rt.cache) ran ?_ ?_
  · obtain ⟨disk,rfl⟩ := initial
    exact fun _ => .inl rfl
  · intro seen s action next earlier ran now
    exact (step_brings ran).readIn earlier now

end AISmartFill

namespace AIGenerate
variable {host : Host} {disk : Files} {node : Node}

-- The directory does not depend on the files.
def State.cacheDir (host : Host) (s : State) : Bytes := (nodePaths host s.disk s.node).cacheDir

theorem loadedCache_brings (node : Node) (fields : List Field) :
    Brings (nodePaths host disk node).cacheDir disk node.rt.cache (loadedCache host disk (cacheKey fields) node) := by
  unfold loadedCache
  split
  · exact .same rfl
  · split
    · exact .same rfl
    · split
      · exact .same rfl
      · exact .load (.same rfl)

theorem validate_brings (thrown : Option Stop) : Brings (nodePaths host disk (validate host disk thrown node)).cacheDir disk
    node.rt.cache (validate host disk thrown node).rt.cache := by
  have polled : Brings (nodePaths host disk node).cacheDir disk node.rt.cache (pollWorker host node).rt.cache :=
    .poll node.rt
  unfold validate
  dsimp only
  split
  · exact .same rfl
  · split
    · exact polled
    · split
      · exact polled
      · exact polled.trans (loadedCache_brings _ _)

theorem startBake_brings (chance : Chance) :
    Brings (nodePaths host (startBake host disk chance node).2 (startBake host disk chance node).1).cacheDir
      (startBake host disk chance node).2 node.rt.cache (startBake host disk chance node).1.rt.cache := by
  have prepared : Brings
      (nodePaths host (prepareBake host disk chance node).2 (prepareBake host disk chance node).1.node).cacheDir
      (prepareBake host disk chance node).2 node.rt.cache (prepareBake host disk chance node).1.node.rt.cache := by
    unfold prepareBake
    split
    · exact .same rfl
    · split
      · exact .same rfl
      · split
        · exact .same rfl
        · dsimp only
          split
          · exact loadedCache_brings (announceHit (resolveSeed chance node) _) _
          · exact .same rfl
  unfold startBake
  split
  all_goals
    rename_i outcome
    rw [outcome] at prepared
    exact prepared

theorem clearCacheOnDisk_brings {dir : Bytes} {disk' : Files} (refused : Path → Bool) :
    Brings dir disk' node.rt.cache (clearCacheOnDisk host refused node disk).1.rt.cache := by
  unfold clearCacheOnDisk
  dsimp only
  split
  · exact .same rfl
  · split
    · exact .same rfl
    · exact .emptied

theorem step_brings {s next : State} {action : Action} (ran : step host s action = some next) :
    Brings (next.cacheDir host) next.disk s.node.rt.cache next.node.rt.cache := by
  cases action with
  | edit _ | connect _ _ | files _ | cancel =>
    cases ran
    exact .same rfl
  | validate thrown =>
    cases ran
    exact validate_brings thrown
  | bake chance =>
    cases ran
    exact startBake_brings chance
  | work w =>
    obtain ⟨worker,disk,wrote,_,rfl⟩ := step_work ran
    exact .same rfl
  | clearCache refused =>
    cases ran
    exact clearCacheOnDisk_brings refused

theorem run_read {start s : State} {actions : List Action} (initial : (system host).initial start)
    (ran : (system host).run start actions = some s) :
    ReadIn (State.cacheDir host) State.disk (Visited (system host) start actions) s.node.rt.cache := by
  refine Visited.traces (fun seen s => ReadIn (State.cacheDir host) State.disk seen s.node.rt.cache) ran ?_ ?_
  · obtain ⟨disk,rfl⟩ := initial
    exact fun _ => .inl rfl
  · intro seen s action next earlier ran now
    exact (step_brings ran).readIn earlier now

end AIGenerate

end SmartFill
