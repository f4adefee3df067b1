import Mathlib.Tactic.Ring
import SmartFill.AISmartFillRuns
import SmartFill.AIGenerateRuns

namespace SmartFill
open Transition ImageCache

namespace CacheBuffer
variable {extension : Bytes} {b : CacheBuffer extension}

-- The file the buffer was read from has three channels.
def Threefold (b : CacheBuffer extension) : Prop := ∀ l : Loaded extension, b = l.buffer → l.result.channels = 3

-- cached_pixels_.size() = cached_w_*cached_h_*3
def Sized (b : CacheBuffer extension) : Prop := (b.pixels.length : Int) = b.width*b.height*3

theorem cleared_threefold : Threefold (cleared : CacheBuffer extension) :=
  fun l same => absurd (congrArg pixels same).symm l.pixels_nonempty

theorem buffer_threefold {l : Loaded extension} (three : l.result.channels = 3) : Threefold l.buffer := by
  intro l' same
  rw [← (Loaded.buffer_result same).1]
  exact three

theorem loaded_length {l : Loaded extension} (loaded : b = l.buffer) :
    0 < b.width ∧ 0 < b.height ∧ (b.pixels.length : Int) = b.width*b.height*l.result.channels := by
  subst loaded
  obtain ⟨wide,high,_,length⟩ := l.size
  exact ⟨wide,high,length⟩

theorem sized_iff {l : Loaded extension} (loaded : b = l.buffer) : b.Sized ↔ l.result.channels = 3 := by
  obtain ⟨width,height,length⟩ := loaded_length loaded
  have area : b.width*b.height ≠ 0 := (mul_pos width height).ne'
  rw [Sized,length]
  constructor
  · intro same
    exact mul_left_cancel₀ area same
  · intro three
    rw [three]

end CacheBuffer

theorem index_inside {x y w h : Int} {k n : Nat} (row : 0 ≤ y ∧ y < h) (column : 0 ≤ x ∧ x < w) (few : k < 3)
    (enough : w*h*3 ≤ n) : (y*w*3 + (x*3+k)).toNat < n := by
  have last : (y+1)*w ≤ h*w := mul_le_mul_of_nonneg_right (by omega) (by omega)
  have split : (y+1)*w = y*w + w := by ring
  have area : h*w = w*h := mul_comm h w
  have start : 0 ≤ y*w := mul_nonneg row.1 (by omega)
  omega

namespace AISmartFill

-- No element engine reads of the buffer lies outside it, at any request.
def ReadsInside (node : Node) : Prop :=
  ∀ src y x r channels, ∀ row ∈ engine node src y x r channels, none ∉ row.2

structure FillInside (node : Node) : Prop where
  reads : ReadsInside node
  sized : useCache node = true → node.rt.cache.Sized

theorem useCache_loaded {node : Node} (used : useCache node = true) : ∃ l : Loaded extension, node.rt.cache = l.buffer :=
  (CacheBuffer.pixels_nonempty _).mp (of_decide_eq_true used).1

theorem channelIndex_few {c : Channel} {k : Nat} (index : channelIndex c = some k) : k < 3 := by
  cases c <;> cases index <;> decide

theorem engineAt_inside {node : Node} (enough : useCache node = true →
    node.rt.cache.width*node.rt.cache.height*3 ≤ (node.rt.cache.pixels.length : Int))
    (src : Channel → Int → Int → F32) (c : Channel) (xi y : Int) : engineAt node src c xi y ≠ none := by
  unfold engineAt
  by_cases used : useCache node = true
  · simp only [used,Bool.not_true,Bool.false_eq_true,if_false]
    split
    · exact Option.some_ne_none _
    · rename_i k index
      split
      · exact Option.some_ne_none _
      · rename_i row
        split
        · rename_i column
          have inside := index_inside (y := y - node.infoBox.y) ⟨by omega,by omega⟩ column (channelIndex_few index)
            (enough used)
          rw [List.getElem?_eq_getElem inside]
          exact Option.some_ne_none _
        · exact Option.some_ne_none _
  · rw [if_pos (by simpa using used)]
    exact Option.some_ne_none _

-- With less than three channels the last blue element is missing.
theorem reads_inside_iff (node : Node) : ReadsInside node ↔
    (useCache node = true → ∀ l : Loaded extension, node.rt.cache = l.buffer → 3 ≤ l.result.channels) := by
  constructor
  · intro reads used l loaded
    obtain ⟨width,height,length⟩ := CacheBuffer.loaded_length loaded
    by_contra fewer
    let x := node.infoBox.x + (node.rt.cache.width-1)
    let y := node.infoBox.y + (node.rt.cache.height-1)
    refine reads (fun _ _ _ => F32.zero) y x (x+1) [.blue] (.blue,[engineAt node (fun _ _ _ => F32.zero) .blue x y]) ?_ ?_
    · simp [engine]
    · have row : y - node.infoBox.y = node.rt.cache.height-1 := by omega
      have column : x - node.infoBox.x = node.rt.cache.width-1 := by omega
      have outside : node.rt.cache.pixels.length ≤
          ((node.rt.cache.height-1)*node.rt.cache.width*3 + ((node.rt.cache.width-1)*3 + (2:Nat))).toNat := by
        have area : 0 < node.rt.cache.width*node.rt.cache.height := mul_pos width height
        have few : node.rt.cache.width*node.rt.cache.height*l.result.channels ≤
            node.rt.cache.width*node.rt.cache.height*2 := mul_le_mul_of_nonneg_left (by omega) area.le
        have split : (node.rt.cache.height-1)*node.rt.cache.width =
            node.rt.cache.width*node.rt.cache.height - node.rt.cache.width := by ring
        omega
      have missing : engineAt node (fun _ _ _ => F32.zero) .blue x y = none := by
        simp only [engineAt,used,channelIndex,row,column,Bool.not_true,Bool.false_eq_true,if_false]
        rw [if_neg (by omega),if_pos (by omega)]
        exact List.getElem?_eq_none outside
      rw [missing]
      exact List.mem_singleton_self _
  · intro enough src y x r channels row member
    obtain ⟨c,_,rfl⟩ := List.mem_map.mp member
    intro lost
    obtain ⟨i,_,lost⟩ := List.mem_map.mp lost
    refine engineAt_inside ?_ src c (x+i) y lost
    intro used
    obtain ⟨l,loaded⟩ := useCache_loaded used
    obtain ⟨width,height,length⟩ := CacheBuffer.loaded_length loaded
    rw [length]
    exact mul_le_mul_of_nonneg_left (enough used l loaded) (mul_pos width height).le

theorem fill_inside_iff (node : Node) : FillInside node ↔ (useCache node = true → node.rt.cache.Threefold) := by
  constructor
  · intro inside used l loaded
    exact (CacheBuffer.sized_iff loaded).mp (inside.sized used)
  · intro threefold
    refine ⟨(reads_inside_iff node).mpr ?_,?_⟩
    · intro used l loaded
      rw [threefold used l loaded]
    · intro used
      obtain ⟨l,loaded⟩ := useCache_loaded used
      exact (CacheBuffer.sized_iff loaded).mpr (threefold used l loaded)

-- The file a _validate or a Bake would load, if it decodes, has three channels.
def LoadsPlain (host : Host) (s : State) : Action → Prop
  | .validate _ | .bake _ | .bakeThrown _ _ => (imageCacheRead (s.disk.read (pressPath host s.node))).ok = true →
      (imageCacheRead (s.disk.read (pressPath host s.node))).channels = 3
  | _ => True

variable {host : Host} {disk : Files} {node : Node} {thrown : Option Stop} {validated : Option (Option Stop)} {key : Bytes}

def FilePlain (disk : Files) (path : Path) : Prop :=
  (imageCacheRead (disk.read path)).ok = true → (imageCacheRead (disk.read path)).channels = 3

theorem loadedCache_threefold (held : node.rt.cache.Threefold) (plain : FilePlain disk (resultPath node key)) :
    (loadedCache disk key node).Threefold := by
  unfold loadedCache
  split
  · exact CacheBuffer.cleared_threefold
  · rename_i named
    split
    · exact held
    · split
      · exact held
      · split
        · exact CacheBuffer.cleared_threefold
        · cases loaded : (CacheBuffer.load (fun _ => true) (normalizePath node.knobs.cacheDir) key disk :
            Option (CacheBuffer extension)) with
          | none => exact CacheBuffer.cleared_threefold
          | some b =>
            obtain ⟨l,rfl,sameDir,sameKey,sameDisk,_⟩ := CacheBuffer.load_some loaded
            have content : l.content = disk.read (resultPath node key) := by
              rw [Loaded.content,sameDir,sameKey,sameDisk,resultPath_cachePath named]
            have readable : (imageCacheRead l.content).ok = true := l.readable
            refine CacheBuffer.buffer_threefold ?_
            rw [Loaded.result,content]
            rw [content] at readable
            exact plain readable

theorem pollWorker_threefold (held : node.rt.cache.Threefold) : (pollWorker host node).rt.cache.Threefold := by
  rw [show (pollWorker host node).rt.cache = _ from Runtime.poll_cache node.rt]
  split
  · exact CacheBuffer.cleared_threefold
  · exact held

theorem validate_threefold (held : node.rt.cache.Threefold) (plain : FilePlain disk (pressPath host node)) :
    (validate host disk thrown node).rt.cache.Threefold := by
  have polled : (polled host node).rt.cache.Threefold := pollWorker_threefold held
  unfold validate
  dsimp only
  split
  · exact held
  · split
    · exact polled
    · split
      · exact polled
      · have named : (setCurrentKey (pollWorker host (enter host node))
            (computeCacheKey (pollWorker host (enter host node)))).rt.currentKey = pressKey host node := polled_key
        rw [tryLoad_cache,named]
        exact loadedCache_threefold polled plain

theorem pressNode_threefold (held : node.rt.cache.Threefold) (plain : FilePlain disk (pressPath host node)) :
    (pressNode host disk validated node).rt.cache.Threefold := by
  have path : pressPath host (setKnobs (setWorker node node.rt.worker.reset) (pressKnobs host node)) =
      pressPath host node := by
    have knobs : pressKnobs host (setKnobs (setWorker node node.rt.worker.reset) (pressKnobs host node)) =
        pressKnobs host node := resolve_resolved _
    unfold pressPath pressKey
    rw [knobs]
    rfl
  unfold pressNode revalidate
  split
  · exact held
  · exact validate_threefold held (by rw [path]; exact plain)

theorem prepareBake_cache (host : Host) (disk : Files) (validated : Option (Option Stop)) (node : Node) :
    (prepareBake host disk validated node).node.rt.cache = node.rt.cache ∨
    (prepareBake host disk validated node).node.rt.cache = (pressNode host disk validated node).rt.cache ∨
    (prepareBake host disk validated node).node.rt.cache = loadedCache disk (pressKey host node)
      (announceHit (pressNode host disk validated node) (pressKey host node)) := by
  have entered : revalidate host disk validated (setKnobs (setWorker node node.rt.worker.reset)
      (resolveDefaultPaths host (setWorker node node.rt.worker.reset).knobs)) = pressNode host disk validated node := rfl
  rw [prepareBake]
  split
  · exact .inl rfl
  · dsimp only
    split
    · exact .inl rfl
    · exact .inl rfl
    · rw [entered,pressNode_key]
      split
      · exact .inr (.inl rfl)
      · split
        · exact .inr (.inr rfl)
        · split
          · exact .inr (.inl rfl)
          · exact .inr (.inl rfl)

theorem startBake_cache (host : Host) (disk : Files) (validated : Option (Option Stop)) (node : Node) :
    (startBake host disk validated node).rt.cache = (prepareBake host disk validated node).node.rt.cache := by
  rw [startBake]
  cases prepareBake host disk validated node <;> rfl

theorem startBake_threefold (held : node.rt.cache.Threefold) (plain : FilePlain disk (pressPath host node)) :
    (startBake host disk validated node).rt.cache.Threefold := by
  have pressed : (pressNode host disk validated node).rt.cache.Threefold := pressNode_threefold held plain
  rw [startBake_cache]
  rcases prepareBake_cache host disk validated node with same | same | same <;> rw [same]
  · exact held
  · exact pressed
  · refine loadedCache_threefold pressed ?_
    have path : resultPath (announceHit (pressNode host disk validated node) (pressKey host node)) (pressKey host node) =
        pressPath host node := pressNode_path
    rw [path]
    exact plain

theorem thrownBake_threefold {stop : BakeStop} {after : Node} (held : node.rt.cache.Threefold)
    (plain : FilePlain disk (pressPath host node)) (thrown : thrownBake host disk validated stop node = some after) :
    after.rt.cache.Threefold := by
  have pressed : (pressNode host disk validated node).rt.cache.Threefold := pressNode_threefold held plain
  obtain ⟨_,⟨_,rfl⟩ | ⟨_,_,rfl⟩ | ⟨_,_,rfl⟩ | ⟨_,ready,job,outcome,⟨_,rfl⟩ | ⟨_,rfl⟩⟩⟩ := thrownBake_cases thrown
  · exact held
  · exact pressed
  · exact pressed
  · exact pressed
  · have started : (startBake host disk validated node).rt.cache.Threefold := startBake_threefold held plain
    rw [startBake_cache,outcome] at started
    exact started

theorem clearCacheDir_threefold (refused : Path → Bool) (held : node.rt.cache.Threefold) :
    (clearCacheDir host refused node disk).1.rt.cache.Threefold := by
  unfold clearCacheDir
  dsimp only
  split
  · exact held
  · split
    · exact held
    · exact CacheBuffer.cleared_threefold

theorem step_threefold {s next : State} {action : Action} (held : s.node.rt.cache.Threefold)
    (plain : LoadsPlain host s action) (ran : step host s action = some next) : next.node.rt.cache.Threefold := by
  cases action with
  | work w =>
    obtain ⟨worker,disk,wrote,_,rfl⟩ := step_work ran
    exact held
  | validate thrown =>
    cases ran
    exact validate_threefold held plain
  | bake validated =>
    cases ran
    exact startBake_threefold held plain
  | bakeThrown validated stop =>
    obtain ⟨after,thrown,rfl⟩ := step_thrown ran
    exact thrownBake_threefold held plain thrown
  | clearCache refused =>
    cases ran
    exact clearCacheDir_threefold refused held
  | edit _ | connect _ _ | files _ | cancel =>
    cases ran
    exact held

theorem guarded_threefold {s : State} (path : Guarded (system host) (LoadsPlain host) s) :
    s.node.rt.cache.Threefold := by
  refine Guarded.keeps (fun s => s.node.rt.cache.Threefold) path ?_ ?_
  · rintro s ⟨disk,rfl⟩
    exact CacheBuffer.cleared_threefold
  · intro s action next held plain ran
    exact step_threefold held plain ran

end AISmartFill

namespace AIGenerate

def ReadsInside (node : Node) : Prop := ∀ y x r channels, ∀ row ∈ engine node y x r channels, none ∉ row.2

structure GenerateInside (node : Node) : Prop where
  reads : ReadsInside node
  sized : haveCache node = true → node.rt.cache.Sized

variable {host : Host} {disk : Files} {node : Node} {thrown : Option Stop} {chance : Chance} {key : Bytes}

theorem channelOffset_few {c : Channel} {k : Nat} (offset : channelOffset c = some k) : k < 3 := by
  cases c <;> cases offset <;> decide

theorem engineAt_inside (enough : haveCache node = true →
    node.rt.cache.width*node.rt.cache.height*3 ≤ (node.rt.cache.pixels.length : Int)) (c : Channel) (i y : Int) :
    engineAt node c i y ≠ none := by
  unfold engineAt
  by_cases used : haveCache node = true
  · simp only [used,Bool.not_true,Bool.false_eq_true,if_false]
    split
    · exact Option.some_ne_none _
    · rename_i row
      split
      · exact Option.some_ne_none _
      · rename_i k offset
        split
        · exact Option.some_ne_none _
        · rename_i column
          have inside := index_inside (x := i) (y := node.rt.cache.height - 1 - y) ⟨by omega,by omega⟩
            ⟨by omega,by omega⟩ (channelOffset_few offset) (enough used)
          rw [List.getElem?_eq_getElem inside]
          exact Option.some_ne_none _
  · rw [if_pos (by simpa using used)]
    exact Option.some_ne_none _

theorem inside_of_threefold (threefold : node.rt.cache.Threefold) : GenerateInside node := by
  have sized : haveCache node = true → node.rt.cache.Sized := by
    intro used
    obtain ⟨l,loaded⟩ := (CacheBuffer.pixels_nonempty _).mp (of_decide_eq_true used).1
    exact (CacheBuffer.sized_iff loaded).mpr (threefold l loaded)
  refine ⟨?_,sized⟩
  intro y x r channels row member lost
  obtain ⟨c,_,rfl⟩ := List.mem_map.mp member
  obtain ⟨i,_,lost⟩ := List.mem_map.mp lost
  exact engineAt_inside (fun used => (sized used).ge) c (x+i) y lost

theorem loadedCache_threefold (held : node.rt.cache.Threefold) : (loadedCache host disk key node).Threefold := by
  unfold loadedCache
  split
  · exact held
  · split
    · exact held
    · split
      · exact held
      · cases loaded : (CacheBuffer.load imageUsable (nodePaths host disk node).cacheDir key disk :
          Option (CacheBuffer extension)) with
        | none => exact held
        | some b =>
          obtain ⟨l,rfl,_,_,_,usable⟩ := CacheBuffer.load_some loaded
          exact CacheBuffer.buffer_threefold (of_decide_eq_true usable).1

theorem pollWorker_threefold (held : node.rt.cache.Threefold) : (pollWorker host node).rt.cache.Threefold := by
  rw [show (pollWorker host node).rt.cache = _ from Runtime.poll_cache node.rt]
  split
  · exact CacheBuffer.cleared_threefold
  · exact held

theorem validate_threefold (held : node.rt.cache.Threefold) : (validate host disk thrown node).rt.cache.Threefold := by
  have polled : (pollWorker host node).rt.cache.Threefold := pollWorker_threefold held
  unfold validate
  dsimp only
  split
  · exact held
  · split
    · exact polled
    · split
      · exact polled
      · exact loadedCache_threefold polled

theorem startBake_threefold (held : node.rt.cache.Threefold) : (startBake host disk chance node).1.rt.cache.Threefold := by
  have prepared : (prepareBake host disk chance node).1.node.rt.cache.Threefold := by
    rw [prepareBake]
    split
    · exact held
    · split
      · exact held
      · split
        · exact held
        · dsimp only
          split
          · exact loadedCache_threefold held
          · exact held
  rw [startBake]
  cases outcome : prepareBake host disk chance node with
  | mk result left =>
    rw [outcome] at prepared
    cases result <;> exact prepared

theorem clearCacheOnDisk_threefold (refused : Path → Bool) (held : node.rt.cache.Threefold) :
    (clearCacheOnDisk host refused node disk).1.rt.cache.Threefold := by
  unfold clearCacheOnDisk
  dsimp only
  split
  · exact held
  · split
    · exact held
    · exact CacheBuffer.cleared_threefold

theorem step_threefold {s next : State} {action : Action} (held : s.node.rt.cache.Threefold)
    (ran : step host s action = some next) : next.node.rt.cache.Threefold := by
  cases action with
  | work w =>
    obtain ⟨worker,disk,wrote,_,rfl⟩ := step_work ran
    exact held
  | validate thrown =>
    cases ran
    exact validate_threefold held
  | bake chance =>
    cases ran
    exact startBake_threefold held
  | clearCache refused =>
    cases ran
    exact clearCacheOnDisk_threefold refused held
  | edit _ | connect _ _ | files _ | cancel =>
    cases ran
    exact held

theorem reached_threefold {s : State} (path : Reached (system host) s) : s.node.rt.cache.Threefold := by
  refine Reached.invariant (fun s => s.node.rt.cache.Threefold) path ?_ (fun _ _ _ => step_threefold)
  rintro s ⟨disk,rfl⟩
  exact CacheBuffer.cleared_threefold

end AIGenerate

namespace EngineBounds

-- AIGenerate refuses files without three channels, AISmartFill loads them.
theorem engine_inside (fillHost : AISmartFill.Host) (host : AIGenerate.Host) :
    (∀ s, Reached (AIGenerate.system host) s → AIGenerate.GenerateInside s.node) ∧
    (∀ s, Reached (AISmartFill.system fillHost) s → (AISmartFill.FillInside s.node ↔
      (AISmartFill.useCache s.node = true → s.node.rt.cache.Threefold))) ∧
    (∀ s, Guarded (AISmartFill.system fillHost) (AISmartFill.LoadsPlain fillHost) s → AISmartFill.FillInside s.node) := by
  refine ⟨?_,?_,?_⟩
  · intro s path
    exact AIGenerate.inside_of_threefold (AIGenerate.reached_threefold path)
  · intro s _
    exact AISmartFill.fill_inside_iff s.node
  · intro s path
    exact (AISmartFill.fill_inside_iff s.node).mpr (fun _ => AISmartFill.guarded_threefold path)

section Pixel
open AISmartFill
variable {channels : Int} {pixels : List F32}

-- A file of one pixel under the key of the node's inputs.
def pixelDisk (pixels : List F32) (channels : Int) : Files :=
  Disk.empty.write (pressPath blackHost blackStart.node) (encoding pixels 1 1 channels)

def pixelNode (pixels : List F32) (channels : Int) : Node :=
  validate blackHost (pixelDisk pixels channels) none blackStart.node

theorem pixelDisk_result (range : inRange 1 1 channels = true) (sized : pixels.length = (1*1*channels).toNat) :
    imageCacheRead ((pixelDisk pixels channels).read (pressPath blackHost blackStart.node)) =
      ⟨true,1,1,channels,pixels,[]⟩ := by
  rw [pixelDisk,Disk.read_write_self]
  exact read_encoding range sized

theorem pixelNode_uses (range : inRange 1 1 channels = true) (sized : pixels.length = (1*1*channels).toNat) :
    useCache (pixelNode pixels channels) = true ∧ ∃ l : Loaded extension, (pixelNode pixels channels).rt.cache = l.buffer ∧
      l.result = ⟨true,1,1,channels,pixels,[]⟩ := by
  have result := pixelDisk_result range sized
  have named : pressPath blackHost blackStart.node ≠ [] := by
    rw [pressPath,resultPath_cachePath (pressKey_nonempty _ _)]
    exact cachePath_nonempty (by decide)
  have present : fileExists (pixelDisk pixels channels) (pressPath blackHost blackStart.node) = true := by
    simp [fileExists,named,Disk.present,pixelDisk]
  obtain ⟨l,loaded,key,content⟩ := validate_loads rfl present (by rw [result])
  have current : (pixelNode pixels channels).rt.currentKey = l.key := validate_currentKey.trans key.symm
  have some_pixel := (CacheBuffer.pixels_nonempty (pixelNode pixels channels).rt.cache).mpr ⟨l,loaded⟩
  obtain ⟨width,height,_⟩ := CacheBuffer.loaded_length (b := (pixelNode pixels channels).rt.cache) loaded
  have loadedKey : (pixelNode pixels channels).rt.cache.loadedKey = l.key := congrArg CacheBuffer.loadedKey loaded
  refine ⟨decide_eq_true ⟨some_pixel,width,height,?_,loadedKey.trans current.symm⟩,l,loaded,?_⟩
  · rw [loadedKey]
    exact l.named.2
  · rw [Loaded.result,content,result]

theorem pixelNode_reached {allowed : State → Action → Prop} (free : ∀ s source mask, allowed s (.connect source mask))
    (edits : ∀ s k, allowed s (.edit k)) (files : ∀ s disk, allowed s (.files disk))
    (shows : allowed {blackStart with disk := pixelDisk pixels channels} (.validate none)) :
    Guarded (system blackHost) allowed ⟨pixelNode pixels channels,pixelDisk pixels channels,[]⟩ := by
  have start : Guarded (system blackHost) allowed blackStart := blackNode_reached (fun _ => free _ _ _) edits
  have stored : Guarded (system blackHost) allowed {blackStart with disk := pixelDisk pixels channels} :=
    start.act (.files (pixelDisk pixels channels)) (files _ _) rfl
  exact stored.act (.validate none) shows rfl

theorem engine_inside_pixel : useCache (pixelNode [F32.one,F32.one,F32.one] 3) = true ∧
    FillInside (pixelNode [F32.one,F32.one,F32.one] 3) ∧ AIGenerate.GenerateInside AIGenerate.sdStart.node := by
  have path : Guarded (system blackHost) (LoadsPlain blackHost) ⟨pixelNode [F32.one,F32.one,F32.one] 3,_,[]⟩ :=
    pixelNode_reached (fun _ _ _ => trivial) (fun _ _ => trivial) (fun _ _ => trivial)
      (fun _ => congrArg ImageCacheReadResult.channels (pixelDisk_result (by decide) (by decide)))
  have generate : Reached (AIGenerate.system AIGenerate.sdHost) AIGenerate.sdStart :=
    AIGenerate.sdStart_reached (fun _ _ => trivial)
  exact ⟨(pixelNode_uses (by decide) (by decide)).1,(engine_inside blackHost AIGenerate.sdHost).2.2 _ path,
    (engine_inside blackHost AIGenerate.sdHost).1 _ generate⟩

-- With a single channel engine reads two elements past the only one.
theorem engine_outside : ¬ ∀ host s, Reached (system host) s → FillInside s.node := by
  intro claim
  have path : Reached (system blackHost) ⟨pixelNode [F32.one] 1,_,[]⟩ :=
    pixelNode_reached (fun _ _ _ => trivial) (fun _ _ => trivial) (fun _ _ => trivial) trivial
  have uses : useCache (pixelNode [F32.one] 1) = true ∧ _ := pixelNode_uses (by decide) (by decide)
  obtain ⟨used,l,loaded,result⟩ := uses
  have three := (fill_inside_iff _).mp (claim _ _ path) used l loaded
  rw [result] at three
  exact absurd three (by decide)

end Pixel

end EngineBounds

end SmartFill
