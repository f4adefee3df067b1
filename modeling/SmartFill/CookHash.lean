import SmartFill.EngineBounds
import SmartFill.GenerateKey
import SmartFill.Viewer

namespace SmartFill.CookHash
open Transition ImageCache

-- What append feeds the hash: Iop::append's own share, which is the knobs and
-- the hashes of the inputs, then loaded_key_ and cook_revision_.
structure Appended (Knobs : Type) where
  knobs : Knobs
  inputs : Option UInt64 × Option UInt64
  loadedKey : Bytes
  cookRevision : Int32

-- A buffer that is no other than before, or empty.
def Shed {e : Bytes} (before after : CacheBuffer e) : Prop := after = before ∨ after = .cleared

-- Of a buffer engine sees all but the key.
def Alike {e : Bytes} (a b : CacheBuffer e) : Prop := a.pixels = b.pixels ∧ a.width = b.width ∧ a.height = b.height

-- The test at the end of _validate: the buffer has become that of current_key_.
def transitioned {T : Type} {e : Bytes} (prevLoaded : Bytes) (rt : Runtime T e) : Bool :=
  decide (rt.cache.loadedKey = rt.currentKey ∧ rt.cache.loadedKey ≠ [] ∧ prevLoaded ≠ rt.cache.loadedKey)

def hit {N T : Type} : Outcome N T → Bool
  | .cached _ => true
  | .stopped _ | .ready _ _ => false

section Buffers
variable {T : Type} {e : Bytes} {a b c : CacheBuffer e}

theorem Shed.trans (first : Shed a b) (later : Shed b c) : Shed a c := by
  rcases later with rfl | rfl
  · exact first
  · exact .inr rfl

-- Buffers are told apart by the key alone as long as none is filled anew.
theorem shed_same (shed : Shed a b) (key : a.loadedKey = b.loadedKey) : b = a := by
  rcases shed with same | rfl
  · exact same
  · rcases a.cases_origin with rfl | ⟨l,rfl⟩
    · rfl
    · exact absurd key l.named.2

theorem shed_poll {r : Rounding} {stale : CacheBuffer e → Bytes → Bool} (rt : Runtime T e) :
    Shed rt.cache (rt.pollWorker r stale).cache := by
  rw [Runtime.poll_cache]
  split
  · exact .inr rfl
  · exact .inl rfl

theorem shed_load {accepts : ImageCacheReadResult → Bool} {dir key prevLoaded : Bytes} {disk : Files} {rt : Runtime T e}
    {otherwise : CacheBuffer e} (loads : rt.cache = (CacheBuffer.load accepts dir key disk).getD otherwise)
    (current : rt.currentKey = key) (fresh : prevLoaded ≠ key) (still : transitioned prevLoaded rt = false) :
    rt.cache = otherwise := by
  cases loaded : (CacheBuffer.load accepts dir key disk : Option (CacheBuffer e)) with
  | none => rw [loads,loaded,Option.getD_none]
  | some b =>
    obtain ⟨l,rfl,_,same,_⟩ := CacheBuffer.load_some loaded
    have turned : transitioned prevLoaded rt = true := by
      refine decide_eq_true ?_
      rw [loads,loaded,current]
      exact ⟨same,l.named.2,fun kept => fresh (kept.trans same)⟩
    rw [turned] at still
    cases still

end Buffers

section Fill
open AISmartFill
variable {host : AISmartFill.Host} {disk : Files} {node : AISmartFill.Node} {s t : AISmartFill.State}

def fillAppend (node : AISmartFill.Node) (cookRevision : Int32) : Appended AISmartFill.Knobs :=
  ⟨node.knobs,(node.source.map (·.hash),node.mask.map (·.hash)),node.rt.cache.loadedKey,cookRevision⟩

-- Whether _validate comes to its invalidate(), and whether start_bake does,
-- which may have Nuke make a _validate before.
def fillValidates (host : AISmartFill.Host) (disk : Files) (thrown : Option Stop) (node : AISmartFill.Node) : Bool :=
  decide (thrown = none) && transitioned (AISmartFill.pollWorker host (AISmartFill.enter host node)).rt.cache.loadedKey
    (AISmartFill.validate host disk none node).rt

def fillRevalidates (host : AISmartFill.Host) (disk : Files) (validated : Option (Option Stop)) (node : AISmartFill.Node) :
    Bool :=
  decide (node.rt.worker.state ≠ .running) && (node.source.isSome && node.mask.isSome) &&
    match validated with
    | none => false
    | some thrown => fillValidates host disk thrown
        (AISmartFill.setKnobs (AISmartFill.setWorker node node.rt.worker.reset) (resolveDefaultPaths host node.knobs))

def fillPresses (host : AISmartFill.Host) (disk : Files) (validated : Option (Option Stop))
    (node : AISmartFill.Node) : Bool :=
  fillRevalidates host disk validated node || hit (AISmartFill.prepareBake host disk validated node)

def fillInvalidates (host : AISmartFill.Host) (s : AISmartFill.State) : AISmartFill.Action → Bool
  | .validate thrown => fillValidates host s.disk thrown s.node
  | .bake validated => fillPresses host s.disk validated s.node
  | .bakeThrown validated stop => decide (stop ≠ .entered) && fillRevalidates host s.disk validated s.node
  | _ => false

-- A stretch of a node's life in which it does not call invalidate().
def fillSilent (host : AISmartFill.Host) : System AISmartFill.State AISmartFill.Action where
  initial _ := True
  step s action := if fillInvalidates host s action then none else AISmartFill.step host s action

theorem fill_load_shed {key : Bytes} {after : AISmartFill.Node}
    (loads : after.rt.cache = AISmartFill.loadedCache disk key node) (current : after.rt.currentKey = key)
    (still : transitioned node.rt.cache.loadedKey after.rt = false) : Shed node.rt.cache after.rt.cache := by
  rw [AISmartFill.loadedCache] at loads
  split at loads
  · exact .inr loads
  · rename_i named
    split at loads
    · exact .inl loads
    · rename_i other
      split at loads
      · exact .inl loads
      · split at loads
        · exact .inr loads
        · refine .inr (shed_load loads current ?_ still)
          rintro rfl
          exact other ⟨rfl,(CacheBuffer.pixels_nonempty _).mpr ((CacheBuffer.loadedKey_nonempty _).mp named)⟩

theorem fill_validate_shed {thrown : Option Stop} (still : fillValidates host disk thrown node = false) :
    Shed node.rt.cache (AISmartFill.validate host disk thrown node).rt.cache := by
  have polled : Shed node.rt.cache (AISmartFill.pollWorker host (AISmartFill.enter host node)).rt.cache :=
    shed_poll (AISmartFill.enter host node).rt
  cases thrown with
  | none =>
    simp only [fillValidates,decide_true,Bool.true_and] at still
    have loads : (AISmartFill.validate host disk none node).rt.cache = AISmartFill.loadedCache disk
        (AISmartFill.pressKey host node) (AISmartFill.pollWorker host (AISmartFill.enter host node)) :=
    AISmartFill.validate_cache
    exact polled.trans (fill_load_shed loads AISmartFill.validate_currentKey still)
  | some stop =>
    unfold AISmartFill.validate
    dsimp only
    split
    · exact .inl rfl
    · split
      · exact polled
      · rw [if_pos]
        · exact polled
        · cases stop <;> simp_all

theorem fill_revalidate_shed {validated : Option (Option Stop)} (stopped : node.rt.worker.state ≠ .running)
    (connected : (node.source.isSome && node.mask.isSome) = true)
    (still : fillRevalidates host disk validated node = false) :
    Shed node.rt.cache (AISmartFill.pressNode host disk validated node).rt.cache := by
  cases validated with
  | none => exact .inl rfl
  | some thrown =>
    simp only [fillRevalidates,decide_eq_true stopped,connected,Bool.true_and] at still
    exact fill_validate_shed still

theorem fill_thrown_shed {validated : Option (Option Stop)} {stop : AISmartFill.BakeStop} {after : AISmartFill.Node}
    (still : (decide (stop ≠ .entered) && fillRevalidates host disk validated node) = false)
    (thrown : AISmartFill.thrownBake host disk validated stop node = some after) : Shed node.rt.cache after.rt.cache := by
  obtain ⟨stopped,left⟩ := AISmartFill.thrownBake_cases thrown
  have pressed (late : stop ≠ .entered) (connected : (node.source.isSome && node.mask.isSome) = true) :
      Shed node.rt.cache (AISmartFill.pressNode host disk validated node).rt.cache := by
    rw [decide_eq_true late,Bool.true_and] at still
    exact fill_revalidate_shed stopped connected still
  rcases left with ⟨_,rfl⟩ | ⟨rfl,connected,rfl⟩ | ⟨rfl,connected,rfl⟩ | ⟨connected,ready,job,outcome,⟨rfl,rfl⟩ | ⟨rfl,rfl⟩⟩
  · exact .inl rfl
  · exact pressed (by decide) connected
  · exact pressed (by decide) connected
  · exact pressed (by decide) connected
  · obtain ⟨source,mask,passes,_⟩ := (AISmartFill.prepareBake_ready outcome).press
    rw [AISmartFill.prepareBake_passes host disk validated stopped passes] at outcome
    split at outcome
    · cases outcome
    · cases outcome
      exact pressed (by decide) connected

theorem fill_bake_shed {validated : Option (Option Stop)} (still : fillPresses host disk validated node = false) :
    Shed node.rt.cache (AISmartFill.startBake host disk validated node).rt.cache := by
  obtain ⟨quiet,unhit⟩ := Bool.or_eq_false_iff.mp still
  have prepared : hit (AISmartFill.prepareBake host disk validated node) = false →
      Shed node.rt.cache (AISmartFill.prepareBake host disk validated node).node.rt.cache := by
    unfold AISmartFill.prepareBake
    split
    · exact fun _ => .inl rfl
    · rename_i stopped
      dsimp only
      split
      · exact fun _ => .inl rfl
      · exact fun _ => .inl rfl
      · rename_i source mask found found'
        have connected : (node.source.isSome && node.mask.isSome) = true :=
          Bool.and_eq_true_iff.mpr ⟨Option.isSome_of_eq_some found,Option.isSome_of_eq_some found'⟩
        have entered : Shed node.rt.cache (AISmartFill.pressNode host disk validated node).rt.cache :=
          fill_revalidate_shed stopped connected quiet
        split
        · exact fun _ => entered
        · split
          · exact nofun
          · split <;> exact fun _ => entered
  have shed := prepared unhit
  unfold AISmartFill.startBake
  split
  all_goals
    rename_i outcome
    rw [outcome] at shed
    exact shed

theorem fill_step_shed {action : AISmartFill.Action} (ran : (fillSilent host).step s action = some t) :
    Shed s.node.rt.cache t.node.rt.cache := by
  simp only [fillSilent] at ran
  split at ran
  · cases ran
  · rename_i silent
    have silent := Bool.eq_false_iff.mpr silent
    cases action with
    | work w =>
      obtain ⟨worker,disk,wrote,_,rfl⟩ := AISmartFill.step_work ran
      exact .inl rfl
    | validate thrown =>
      cases ran
      exact fill_validate_shed silent
    | bake validated =>
      cases ran
      exact fill_bake_shed silent
    | bakeThrown validated stop =>
      obtain ⟨after,thrown,rfl⟩ := AISmartFill.step_thrown ran
      exact fill_thrown_shed silent thrown
    | clearCache refused =>
      cases ran
      show Shed _ (AISmartFill.clearCacheDir host refused s.node s.disk).1.rt.cache
      unfold AISmartFill.clearCacheDir
      dsimp only
      split
      · exact .inl rfl
      · split
        · exact .inl rfl
        · exact .inr rfl
    | edit _ | connect _ _ | files _ | cancel =>
      cases ran
      exact .inl rfl

-- A node that _validate has been over since it was last changed.
structure FillDrawn (node : AISmartFill.Node) : Prop where
  key : node.rt.currentKey = AISmartFill.computeCacheKey node
  box : ∃ source, node.source = some source ∧ node.infoBox = source.box

theorem fill_validated (connected : node.source.isSome) : FillDrawn (AISmartFill.validate host disk none node) := by
  obtain ⟨source,found⟩ := Option.isSome_iff_exists.mp connected
  have press : AISmartFill.SamePress host node (AISmartFill.validate host disk none node) := AISmartFill.validate_press
  refine ⟨Viewer.fill_current_key,source,press.source.trans found,?_⟩
  rw [AISmartFill.validate_normal]
  show (node.source.map (·.box)).getD node.infoBox = _
  rw [found]
  rfl

-- What append adds settles the pixels once it settles the buffer.
theorem fill_draws {m n : AISmartFill.Node} {revision revision' : Int32} (drawn : FillDrawn m) (drawn' : FillDrawn n)
    (hash : fillAppend m revision = fillAppend n revision') (upstream : AIGenerate.HashDetermines m.source n.source)
    (buffer : Alike m.rt.cache n.rt.cache) (src : Channel → Int → Int → F32) (c : Channel) (x y : Int) :
    AISmartFill.engineAt m src c x y = AISmartFill.engineAt n src c x y := by
  simp only [fillAppend,Appended.mk.injEq,Prod.mk.injEq] at hash
  obtain ⟨knobs,⟨source,mask⟩,loadedKey,_⟩ := hash
  obtain ⟨pixels,width,height⟩ := buffer
  have key : m.rt.currentKey = n.rt.currentKey := by
    rw [drawn.key,drawn'.key,AISmartFill.computeCacheKey,AISmartFill.computeCacheKey]
    simp only [AISmartFill.keyFields,knobs,source,mask]
  have box : m.infoBox = n.infoBox := by
    obtain ⟨one,found,box⟩ := drawn.box
    obtain ⟨other,found',box'⟩ := drawn'.box
    have same := upstream source
    rw [found,found'] at same
    cases same
    exact box.trans box'.symm
  have used : useCache m = useCache n := by
    unfold useCache
    rw [pixels,width,height,loadedKey,key]
  rw [AISmartFill.engineAt,AISmartFill.engineAt,used,box,pixels,width,height]

-- A validated node is validated again, its own file loaded.
theorem fill_validates_again (idle : node.rt.worker.state = .idle) (used : useCache node = true)
    (key : node.rt.currentKey = AISmartFill.pressKey host node) :
    (AISmartFill.validate host disk none node).rt.cache = node.rt.cache ∧ fillValidates host disk none node = false := by
  obtain ⟨some_,_,_,_,current⟩ := of_decide_eq_true used
  have polled : (AISmartFill.polled host node).rt.cache = node.rt.cache := by
    rw [show (AISmartFill.polled host node).rt = node.rt.pollWorker host.rounding AISmartFill.stale from rfl,
      Runtime.poll_idle idle]
  have kept : (AISmartFill.validate host disk none node).rt.cache = node.rt.cache := by
    rw [AISmartFill.validate_cache,AISmartFill.loadedCache,polled,if_neg (AISmartFill.pressKey_nonempty _ _),if_pos]
    exact ⟨(current.trans key).symm,some_⟩
  refine ⟨kept,?_⟩
  simp only [fillValidates,decide_true,Bool.true_and,transitioned,decide_eq_false_iff_not,not_and_or,not_not]
  refine .inr (.inr ?_)
  rw [kept]
  exact congrArg CacheBuffer.loadedKey polled

end Fill

section Generate
open AIGenerate
variable {host : AIGenerate.Host} {disk : Files} {node : AIGenerate.Node} {s t : AIGenerate.State}

def generateAppend (node : AIGenerate.Node) (cookRevision : Int32) : Appended AIGenerate.Knobs :=
  ⟨node.knobs,(node.source.map (·.hash),node.control.map (·.hash)),node.rt.cache.loadedKey,cookRevision⟩

def generateValidates (host : AIGenerate.Host) (disk : Files) (thrown : Option Stop) (node : AIGenerate.Node) : Bool :=
  decide (thrown = none) && transitioned (AIGenerate.pollWorker host node).rt.cache.loadedKey
    (AIGenerate.validate host disk none node).rt

-- AIGenerate's Clear Cache calls invalidate() too, once it has cleared.
def generateInvalidates (host : AIGenerate.Host) (s : AIGenerate.State) : AIGenerate.Action → Bool
  | .validate thrown => generateValidates host s.disk thrown s.node
  | .bake chance => hit (AIGenerate.prepareBake host s.disk chance s.node).1
  | .clearCache _ =>
    let dir := (nodePaths host s.disk s.node).cacheDir
    decide (dir ≠ []) && isDirectory dir s.disk
  | _ => false

def generateSilent (host : AIGenerate.Host) : System AIGenerate.State AIGenerate.Action where
  initial _ := True
  step s action := if generateInvalidates host s action then none else AIGenerate.step host s action

theorem generate_load_shed {key : Bytes} {after : AIGenerate.Node}
    (loads : after.rt.cache = AIGenerate.loadedCache host disk key node) (current : after.rt.currentKey = key)
    (still : transitioned node.rt.cache.loadedKey after.rt = false) : Shed node.rt.cache after.rt.cache := by
  rw [AIGenerate.loadedCache] at loads
  split at loads
  · exact .inl loads
  · rename_i other
    split at loads
    · exact .inl loads
    · split at loads
      · exact .inl loads
      · exact .inl (shed_load loads current (fun same => other (.inr same.symm)) still)

theorem generate_validate_shed {thrown : Option Stop} (still : generateValidates host disk thrown node = false) :
    Shed node.rt.cache (AIGenerate.validate host disk thrown node).rt.cache := by
  have polled : Shed node.rt.cache (AIGenerate.pollWorker host node).rt.cache := shed_poll node.rt
  cases thrown with
  | none =>
    simp only [generateValidates,decide_true,Bool.true_and] at still
    have loads : (AIGenerate.validate host disk none node).rt.cache = AIGenerate.loadedCache host disk
        (AIGenerate.computeCacheKey host disk node) (AIGenerate.pollWorker host node) := AIGenerate.validate_cache
    exact polled.trans (generate_load_shed loads AIGenerate.validate_currentKey still)
  | some stop =>
    unfold AIGenerate.validate
    dsimp only
    split
    · exact .inl rfl
    · split
      · exact polled
      · rw [if_pos]
        · exact polled
        · cases stop <;> simp_all

theorem generate_bake_shed {chance : Chance} (still : hit (AIGenerate.prepareBake host disk chance node).1 = false) :
    Shed node.rt.cache (AIGenerate.startBake host disk chance node).1.rt.cache := by
  have prepared : hit (AIGenerate.prepareBake host disk chance node).1 = false →
      Shed node.rt.cache (AIGenerate.prepareBake host disk chance node).1.node.rt.cache := by
    unfold AIGenerate.prepareBake
    split
    · exact fun _ => .inl rfl
    · split
      · exact fun _ => .inl rfl
      · split
        · exact fun _ => .inl rfl
        · dsimp only
          split
          · exact nofun
          · exact fun _ => .inl rfl
  have shed := prepared still
  unfold AIGenerate.startBake
  split
  all_goals
    rename_i outcome
    rw [outcome] at shed
    exact shed

theorem generate_step_shed {action : AIGenerate.Action} (ran : (generateSilent host).step s action = some t) :
    Shed s.node.rt.cache t.node.rt.cache := by
  simp only [generateSilent] at ran
  split at ran
  · cases ran
  · rename_i silent
    have silent := Bool.eq_false_iff.mpr silent
    cases action with
    | work w =>
      obtain ⟨worker,disk,wrote,_,rfl⟩ := AIGenerate.step_work ran
      exact .inl rfl
    | validate thrown =>
      cases ran
      exact generate_validate_shed silent
    | bake chance =>
      cases ran
      exact generate_bake_shed silent
    | clearCache refused =>
      cases ran
      show Shed _ (AIGenerate.clearCacheOnDisk host refused s.node s.disk).1.rt.cache
      unfold AIGenerate.clearCacheOnDisk
      dsimp only
      split
      · exact .inl rfl
      · split
        · exact .inl rfl
        · exact .inr rfl
    | edit _ | connect _ _ | files _ | cancel =>
      cases ran
      exact .inl rfl

theorem generate_draws {m n : AIGenerate.Node} {revision revision' : Int32}
    (hash : generateAppend m revision = generateAppend n revision')
    (buffer : Alike m.rt.cache n.rt.cache) (c : Channel) (x y : Int) :
    AIGenerate.engineAt m c x y = AIGenerate.engineAt n c x y := by
  simp only [generateAppend,Appended.mk.injEq] at hash
  obtain ⟨pixels,width,height⟩ := buffer
  have cached : haveCache m = haveCache n := by
    unfold haveCache
    rw [pixels,width,height,hash.1]
  rw [AIGenerate.engineAt,AIGenerate.engineAt,cached,pixels,width,height]

end Generate

-- As long as a node calls no invalidate(), what it adds to the hash tells all
-- that engine draws, whatever happens to the files and to the node meanwhile:
-- a buffer that is filled anew under the old key is announced by the call.
theorem redraw_announced (fillHost : AISmartFill.Host) (host : AIGenerate.Host) :
    (∀ s t, Leads (fillSilent fillHost) s t → FillDrawn s.node → FillDrawn t.node →
      AIGenerate.HashDetermines s.node.source t.node.source → ∀ revision revision',
        fillAppend s.node revision = fillAppend t.node revision' →
          ∀ src c x y, AISmartFill.engineAt s.node src c x y = AISmartFill.engineAt t.node src c x y) ∧
    ∀ s t, Leads (generateSilent host) s t → ∀ revision revision',
      generateAppend s.node revision = generateAppend t.node revision' →
        ∀ c x y, AIGenerate.engineAt s.node c x y = AIGenerate.engineAt t.node c x y := by
  constructor
  · intro s t path drawn drawn' upstream revision revision' hash
    have shed : Shed s.node.rt.cache t.node.rt.cache :=
      path.keeps (fun t => Shed s.node.rt.cache t.node.rt.cache) (.inl rfl)
        (fun _ _ _ before ran => before.trans (fill_step_shed ran))
    have same := shed_same shed (congrArg Appended.loadedKey hash)
    exact fill_draws drawn drawn' hash upstream (same ▸ ⟨rfl,rfl,rfl⟩)
  · intro s t path revision revision' hash
    have shed : Shed s.node.rt.cache t.node.rt.cache :=
      path.keeps (fun t => Shed s.node.rt.cache t.node.rt.cache) (.inl rfl)
        (fun _ _ _ before ran => before.trans (generate_step_shed ran))
    have same := shed_same shed (congrArg Appended.loadedKey hash)
    exact generate_draws hash (same ▸ ⟨rfl,rfl,rfl⟩)

section Pixel
open AISmartFill EngineBounds

def whitePixel : List F32 := [F32.one,F32.one,F32.one]

-- The pixel a node shows stays when its file goes.
theorem redraw_announced_pixel : useCache (pixelNode whitePixel 3) = true ∧ ∀ c x y,
    AISmartFill.engineAt (pixelNode whitePixel 3) (fun _ _ _ => F32.zero) c x y =
      AISmartFill.engineAt (AISmartFill.validate blackHost Disk.empty none (pixelNode whitePixel 3))
        (fun _ _ _ => F32.zero) c x y := by
  have shown : useCache (pixelNode whitePixel 3) = true ∧ _ := pixelNode_uses (by decide) (by decide)
  have drawn : FillDrawn (pixelNode whitePixel 3) := fill_validated rfl
  have resolved : resolveDefaultPaths blackHost (pixelNode whitePixel 3).knobs = (pixelNode whitePixel 3).knobs := by
    rw [pixelNode,AISmartFill.validate_knobs]
    exact AISmartFill.resolve_resolved _
  have key : AISmartFill.pressKey blackHost (pixelNode whitePixel 3) = AISmartFill.computeCacheKey (pixelNode whitePixel 3) :=
    AISmartFill.computeCacheKey_congr rfl rfl resolved
  obtain ⟨kept,silent⟩ := @fill_validates_again blackHost Disk.empty _ rfl shown.1 (drawn.key.trans key.symm)
  have path : Leads (fillSilent blackHost) ⟨pixelNode whitePixel 3,pixelDisk whitePixel 3,[]⟩
      ⟨AISmartFill.validate blackHost Disk.empty none (pixelNode whitePixel 3),Disk.empty,[]⟩ :=
    (Relation.ReflTransGen.refl.tail ⟨.files Disk.empty,rfl⟩).tail ⟨.validate none,by
      simp only [fillSilent,fillInvalidates,silent,Bool.false_eq_true,if_false]
      rfl⟩
  have press : AISmartFill.SamePress blackHost (pixelNode whitePixel 3)
      (AISmartFill.validate blackHost Disk.empty none (pixelNode whitePixel 3)) := AISmartFill.validate_press
  refine ⟨shown.1,(redraw_announced blackHost AIGenerate.sdHost).1 _ _ path drawn (fill_validated rfl) ?_ 0 0 ?_ _⟩
  · rw [press.source]
    exact fun _ => rfl
  · simp only [fillAppend,kept,press.source,press.mask,press.knobs,resolved]

end Pixel

end SmartFill.CookHash
