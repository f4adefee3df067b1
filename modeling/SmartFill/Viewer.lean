import SmartFill.BufferSources

namespace SmartFill.Viewer
open Transition ImageCache

-- The buffer is what image_cache_read makes of this file.
structure Decoded {e : Bytes} (path : Path) (disk : Files) (b : CacheBuffer e) : Prop where
  readable : (imageCacheRead (disk.read path)).ok = true
  pixels : b.pixels = (imageCacheRead (disk.read path)).pixels
  size : b.width = (imageCacheRead (disk.read path)).width ∧ b.height = (imageCacheRead (disk.read path)).height

-- What engine shows belongs to the key of the node as it is: it uses the buffer
-- only for pixels that some state of the run had in the file of that key, and
-- otherwise passes on its source, or black.
structure FillCurrent (seen : AISmartFill.State → Prop) (node : AISmartFill.Node) : Prop where
  key : node.rt.currentKey = AISmartFill.computeCacheKey node
  cached : AISmartFill.useCache node = true → node.rt.cache.loadedKey = node.rt.currentKey ∧
    ∃ s, seen s ∧ Decoded (AISmartFill.resultPath s.node node.rt.currentKey) s.disk node.rt.cache
  plain : AISmartFill.useCache node = false → ∀ src c x y, AISmartFill.engineAt node src c x y = some (src c x y)

structure GenerateCurrent (host : AIGenerate.Host) (disk : Files) (seen : AIGenerate.State → Prop)
    (node : AIGenerate.Node) : Prop where
  key : node.rt.currentKey = AIGenerate.computeCacheKey host disk node
  cached : AIGenerate.haveCache node = true → node.rt.cache.loadedKey = node.rt.currentKey ∧
    ∃ s, seen s ∧ Decoded (AIGenerate.resultPath host s.disk s.node node.rt.currentKey) s.disk node.rt.cache
  plain : AIGenerate.haveCache node = false → ∀ c x y, AIGenerate.engineAt node c x y = some F32.zero

theorem decoded_buffer {e : Bytes} (l : Loaded e) : Decoded (cachePath e l.dir l.key) l.disk l.buffer :=
  ⟨l.readable,rfl,rfl,rfl⟩

section Fill
open AISmartFill
variable {host : AISmartFill.Host} {disk : Files} {node : AISmartFill.Node} {seen : AISmartFill.State → Prop}

theorem fill_current_key : (AISmartFill.validate host disk none node).rt.currentKey =
    AISmartFill.computeCacheKey (AISmartFill.validate host disk none node) := by
  have same : AISmartFill.computeCacheKey (AISmartFill.validate host disk none node) = AISmartFill.pressKey host node :=
    AISmartFill.computeCacheKey_congr validate_press.source validate_press.mask AISmartFill.validate_knobs
  rw [AISmartFill.validate_currentKey,same]

theorem fill_current
    (read : ReadIn AISmartFill.State.cacheDir AISmartFill.State.disk seen
      (AISmartFill.validate host disk none node).rt.cache) :
    FillCurrent seen (AISmartFill.validate host disk none node) := by
  refine ⟨fill_current_key,?_,?_⟩
  · intro used
    have parts := of_decide_eq_true used
    have key := parts.2.2.2.2
    refine ⟨key,?_⟩
    rcases read with cleared | ⟨s,now,l,loaded,dir,files,_⟩
    · exact absurd (by rw [cleared]; rfl) parts.1
    · refine ⟨s,now,?_⟩
      have own : (AISmartFill.validate host disk none node).rt.currentKey = l.key := by
        rw [← key,loaded]
        rfl
      have path : AISmartFill.resultPath s.node l.key = cachePath AISmartFill.extension l.dir l.key := by
        rw [resultPath_cachePath l.named.2,dir,AISmartFill.State.cacheDir]
      rw [own,path,loaded,← files]
      exact decoded_buffer l
  · intro unused src c x y
    rw [AISmartFill.engineAt,unused]
    rfl

end Fill

section Generate
open AIGenerate
variable {host : AIGenerate.Host} {disk : Files} {node : AIGenerate.Node} {seen : AIGenerate.State → Prop}

-- The buffer when try_load_cache_for_key looks at it: the poll of a finished
-- bake may have emptied it.
def polledCache (node : AIGenerate.Node) : CacheBuffer AIGenerate.extension :=
  if node.rt.worker.state = .done ∧ AIGenerate.stale node.rt.cache node.rt.bakingKey = true then .cleared else node.rt.cache

def Replaceable (host : AIGenerate.Host) (disk : Files) (node : AIGenerate.Node) : Prop :=
  ∀ l : Loaded AIGenerate.extension, polledCache node = l.buffer → l.result.width = node.knobs.width.toInt →
    l.result.height = node.knobs.height.toInt → l.key ≠ AIGenerate.computeCacheKey host disk node →
      FileUsable host disk node (AIGenerate.computeCacheKey host disk node)

theorem pollWorker_cache : (AIGenerate.pollWorker host node).rt.cache = polledCache node :=
  Runtime.poll_cache node.rt

theorem pollWorker_usable {key : Bytes} :
    FileUsable host disk (AIGenerate.pollWorker host node) key ↔ FileUsable host disk node key :=
  ⟨fun usable => ⟨usable.exists_,usable.ok,usable.image⟩,fun usable => ⟨usable.exists_,usable.ok,usable.image⟩⟩

theorem haveCache_loaded {l : Loaded AIGenerate.extension} (loaded : node.rt.cache = l.buffer) :
    AIGenerate.haveCache node = true ↔
      l.result.width = node.knobs.width.toInt ∧ l.result.height = node.knobs.height.toInt := by
  have pixels : node.rt.cache.pixels ≠ [] := (CacheBuffer.pixels_nonempty _).mpr ⟨l,loaded⟩
  have width : node.rt.cache.width = l.result.width := by rw [loaded]; rfl
  have height : node.rt.cache.height = l.result.height := by rw [loaded]; rfl
  simp [AIGenerate.haveCache,pixels,width,height,l.size.1,l.size.2.1]

theorem haveCache_cleared (empty : node.rt.cache = .cleared) : AIGenerate.haveCache node = false := by
  simp [AIGenerate.haveCache,empty,CacheBuffer.cleared]

-- engine tests the size alone; so the buffer has to be right already.
theorem generate_current_iff_held (node : AIGenerate.Node)
    (read : ReadIn (AIGenerate.State.cacheDir host) AIGenerate.State.disk seen node.rt.cache)
    (key : node.rt.currentKey = AIGenerate.computeCacheKey host disk node) :
    GenerateCurrent host disk seen node ↔ ∀ l : Loaded AIGenerate.extension, node.rt.cache = l.buffer →
      l.result.width = node.knobs.width.toInt → l.result.height = node.knobs.height.toInt →
        l.key = node.rt.currentKey := by
  constructor
  · intro current l loaded width height
    obtain ⟨same,_⟩ := current.cached ((haveCache_loaded loaded).mpr ⟨width,height⟩)
    rw [loaded] at same
    exact same
  · intro held
    refine ⟨key,?_,?_⟩
    · intro used
      rcases read with cleared | ⟨s,now,l,loaded,dir,files,_⟩
      · rw [haveCache_cleared cleared] at used
        cases used
      · have size := (haveCache_loaded loaded).mp used
        have own := held l loaded size.1 size.2
        refine ⟨by rw [loaded]; exact own,s,now,?_⟩
        have path : AIGenerate.resultPath host s.disk s.node l.key = cachePath AIGenerate.extension l.dir l.key := by
          rw [AIGenerate.resultPath,dir,AIGenerate.State.cacheDir]
        rw [← own,path,loaded,← files]
        exact decoded_buffer l
    · intro unused c x y
      rw [AIGenerate.engineAt,unused]
      rfl

theorem generate_current_iff
    (read : ReadIn (AIGenerate.State.cacheDir host) AIGenerate.State.disk seen
      (AIGenerate.validate host disk none node).rt.cache) :
    GenerateCurrent host disk seen (AIGenerate.validate host disk none node) ↔ Replaceable host disk node := by
  have key : AIGenerate.computeCacheKey host disk (AIGenerate.validate host disk none node) =
      AIGenerate.computeCacheKey host disk node := by
    rw [AIGenerate.validate_normal]
    exact AIGenerate.computeCacheKey_congr rfl rfl rfl rfl
  rw [generate_current_iff_held _ read (by rw [key,AIGenerate.validate_currentKey]),AIGenerate.validate_cache,
    AIGenerate.validate_knobs,AIGenerate.validate_currentKey]
  have named : AIGenerate.computeCacheKey host disk node ≠ [] := cacheKey_nonempty _
  constructor
  · intro held l loaded width height other
    by_contra unusable
    have kept : AIGenerate.loadedCache host disk (AIGenerate.computeCacheKey host disk node)
        (AIGenerate.pollWorker host node) = l.buffer := by
      rw [loadedCache_unusable (mt pollWorker_usable.mp unusable),pollWorker_cache,loaded]
    exact other (held l kept width height)
  · intro replaceable l loaded width height
    by_contra other
    by_cases held : (AIGenerate.pollWorker host node).rt.cache.loadedKey = AIGenerate.computeCacheKey host disk node
    · rw [AIGenerate.loadedCache,if_pos (.inr held.symm)] at loaded
      rw [loaded] at held
      exact other held
    · by_cases usable : FileUsable host disk node (AIGenerate.computeCacheKey host disk node)
      · obtain ⟨l',loaded',same,_⟩ := loadedCache_usable named held (pollWorker_usable.mpr usable)
        rw [loaded] at loaded'
        exact other ((Loaded.buffer_result loaded').2.trans same)
      · rw [loadedCache_unusable (mt pollWorker_usable.mp usable),pollWorker_cache] at loaded
        exact usable (replaceable l loaded width height other)

end Generate

-- AISmartFill always shows what belongs to its inputs. AIGenerate does exactly
-- when no image of another key, of the knobs' size, is left in its buffer.
theorem viewer_current (fillHost : AISmartFill.Host) (host : AIGenerate.Host) :
    (∀ start actions s, (AISmartFill.system fillHost).initial start →
      (AISmartFill.system fillHost).run start actions = some s →
      FillCurrent (Visited (AISmartFill.system fillHost) start (actions ++ [.validate none]))
        (AISmartFill.validate fillHost s.disk none s.node)) ∧
    (∀ start actions s, (AIGenerate.system host).initial start → (AIGenerate.system host).run start actions = some s →
      (GenerateCurrent host s.disk (Visited (AIGenerate.system host) start (actions ++ [.validate none]))
        (AIGenerate.validate host s.disk none s.node) ↔ Replaceable host s.disk s.node)) := by
  constructor
  · intro start actions s initial ran
    have validated : (AISmartFill.system fillHost).run start (actions ++ [.validate none]) =
        some {s with node := AISmartFill.validate fillHost s.disk none s.node} := System.run_snoc.mpr ⟨s,ran,rfl⟩
    exact fill_current (AISmartFill.run_read initial validated)
  · intro start actions s initial ran
    have validated : (AIGenerate.system host).run start (actions ++ [.validate none]) =
        some {s with node := AIGenerate.validate host s.disk none s.node} := System.run_snoc.mpr ⟨s,ran,rfl⟩
    exact generate_current_iff (AIGenerate.run_read initial validated)

section Prompts
open AIGenerate
variable {pixels : List F32} {disk : Files} {node : AIGenerate.Node} {prompt : Bytes}

def keyOf (prompt : Bytes) : Bytes := AIGenerate.computeCacheKey sdHost Disk.empty (sdNode prompt)

def promptPath (prompt : Bytes) : Path := cachePath AIGenerate.extension (ascii "/c") (keyOf prompt)

theorem keyOf_eq (knobs : node.knobs = sdKnobs prompt) (alone : node.source = none ∧ node.control = none)
    (seed : node.lastResolvedSeed = 0) : AIGenerate.computeCacheKey sdHost disk node = keyOf prompt := by
  rw [sdNode_key disk Disk.empty knobs]
  exact AIGenerate.computeCacheKey_congr knobs alone.1 alone.2 seed

theorem keyOf_nonempty (prompt : Bytes) : keyOf prompt ≠ [] := cacheKey_nonempty _

theorem keys_differ : keyOf (ascii "x") ≠ keyOf (ascii "y") := by decide +kernel

theorem promptPath_differ : promptPath (ascii "y") ≠ promptPath (ascii "x") :=
  fun same => keys_differ (cachePath_injective (by decide) same).symm

theorem sdNode_resultPath {key : Bytes} (knobs : node.knobs = sdKnobs prompt) :
    AIGenerate.resultPath sdHost disk node key = cachePath AIGenerate.extension (ascii "/c") key := by
  rw [AIGenerate.resultPath,sdNode_paths disk knobs]

theorem prompt_usable (knobs : node.knobs = sdKnobs prompt) (length : pixels.length = (1024*1024*3 : Int).toNat)
    (file : disk.read (promptPath prompt) = some (encoding pixels 1024 1024 3)) :
    FileUsable sdHost disk node (keyOf prompt) := by
  have result : imageCacheRead (some (encoding pixels 1024 1024 3)) = ⟨true,1024,1024,3,pixels,[]⟩ :=
    read_encoding (by decide) length
  have path : AIGenerate.resultPath sdHost disk node (keyOf prompt) = promptPath prompt := sdNode_resultPath knobs
  refine ⟨?_,?_,?_⟩ <;> rw [path]
  · have named : promptPath prompt ≠ [] := cachePath_nonempty (by decide)
    simp [fileExists,Disk.present,file,named]
  · rw [file,result]
  · rw [file,result]
    rfl

theorem prompt_loads (knobs : node.knobs = sdKnobs prompt) (alone : node.source = none ∧ node.control = none)
    (seed : node.lastResolvedSeed = 0) (other : (polledCache node).loadedKey ≠ keyOf prompt)
    (length : pixels.length = (1024*1024*3 : Int).toNat)
    (file : disk.read (promptPath prompt) = some (encoding pixels 1024 1024 3)) :
    ∃ l : Loaded AIGenerate.extension, (AIGenerate.validate sdHost disk none node).rt.cache = l.buffer ∧
      l.key = keyOf prompt ∧ l.result = ⟨true,1024,1024,3,pixels,[]⟩ := by
  have key : AIGenerate.computeCacheKey sdHost disk node = keyOf prompt := keyOf_eq knobs alone seed
  obtain ⟨l,loaded,same,content⟩ := loadedCache_usable (keyOf_nonempty prompt) (by rw [pollWorker_cache]; exact other)
    (pollWorker_usable.mpr (prompt_usable knobs length file))
  refine ⟨l,?_,same,?_⟩
  · rw [AIGenerate.validate_cache,key]
    exact loaded
  · have path : AIGenerate.resultPath sdHost disk (AIGenerate.pollWorker sdHost node) (keyOf prompt) = promptPath prompt :=
      sdNode_resultPath knobs
    rw [Loaded.result,content,path,file,read_encoding (by decide) length]

-- The prompt is changed after a _validate.
def turnedNode (disk : Files) : AIGenerate.Node :=
  {AIGenerate.validate sdHost disk none (sdNode (ascii "x")) with knobs := sdKnobs (ascii "y")}

def turning : List AIGenerate.Action := [.edit (sdKnobs (ascii "x")),.validate none,.edit (sdKnobs (ascii "y"))]

theorem turned_run (disk : Files) : (AIGenerate.system sdHost).run ⟨AIGenerate.fresh,disk,[]⟩ turning =
    some ⟨turnedNode disk,disk,[]⟩ := rfl

theorem turnedNode_plain (disk : Files) : (turnedNode disk).source = none ∧ (turnedNode disk).control = none ∧
    (turnedNode disk).lastResolvedSeed = 0 ∧ (turnedNode disk).rt.worker.state = .idle := by
  rw [turnedNode,AIGenerate.validate_normal]
  exact ⟨rfl,rfl,rfl,rfl⟩

theorem turnedNode_key (disk : Files) :
    AIGenerate.computeCacheKey sdHost disk (turnedNode disk) = keyOf (ascii "y") := by
  obtain ⟨source,control,seed,_⟩ := turnedNode_plain disk
  exact keyOf_eq rfl ⟨source,control⟩ seed

theorem turnedNode_loads (length : pixels.length = (1024*1024*3 : Int).toNat)
    (file : disk.read (promptPath (ascii "x")) = some (encoding pixels 1024 1024 3)) :
    ∃ l : Loaded AIGenerate.extension, polledCache (turnedNode disk) = l.buffer ∧ l.key = keyOf (ascii "x") ∧
      l.result = ⟨true,1024,1024,3,pixels,[]⟩ := by
  have other : (polledCache (sdNode (ascii "x"))).loadedKey ≠ keyOf (ascii "x") := (keyOf_nonempty _).symm
  have knobs : (sdNode (ascii "x")).knobs = sdKnobs (ascii "x") := rfl
  obtain ⟨l,loaded,key,result⟩ := prompt_loads knobs ⟨rfl,rfl⟩ rfl other length file
  refine ⟨l,?_,key,result⟩
  rw [polledCache,if_neg (by simp [(turnedNode_plain disk).2.2.2])]
  exact loaded

theorem turned_pixels : ∃ pixels : List F32, pixels.length = (1024*1024*3 : Int).toNat :=
  ⟨List.replicate _ F32.zero,List.length_replicate⟩

-- "x" is on the disk, "y" is not.
def staleDisk (pixels : List F32) : Files :=
  Disk.empty.write (promptPath (ascii "x")) (encoding pixels 1024 1024 3)

theorem staleDisk_absent (pixels : List F32) : fileExists (staleDisk pixels) (promptPath (ascii "y")) = false := by
  have missing : (staleDisk pixels).read (promptPath (ascii "y")) = none := by
    rw [staleDisk,Disk.read_write_other promptPath_differ,Disk.read_empty]
  have flat : (staleDisk pixels).dirs = [] := rfl
  simp [fileExists,Disk.present,missing,flat]

-- Both are.
def fullDisk (pixels : List F32) : Files := (staleDisk pixels).write (promptPath (ascii "y")) (encoding pixels 1024 1024 3)

theorem fullDisk_reads (pixels : List F32) :
    (fullDisk pixels).read (promptPath (ascii "x")) = some (encoding pixels 1024 1024 3) ∧
    (fullDisk pixels).read (promptPath (ascii "y")) = some (encoding pixels 1024 1024 3) := by
  refine ⟨?_,Disk.read_write_self⟩
  rw [fullDisk,Disk.read_write_other promptPath_differ.symm,staleDisk,Disk.read_write_self]

end Prompts

section Pixel
open AISmartFill

-- The file of the black pixel, before anything has run.
def pixelDisk : Files :=
  Disk.empty.write (AISmartFill.pressPath blackHost blackStart.node) (encoding [F32.zero,F32.zero,F32.zero] 1 1 3)

theorem pixel_used : AISmartFill.useCache (AISmartFill.validate blackHost pixelDisk none blackStart.node) = true := by
  have path : AISmartFill.pressPath blackHost blackStart.node ≠ [] := by
    rw [AISmartFill.pressPath,resultPath_cachePath (pressKey_nonempty _ _)]
    exact cachePath_nonempty (by decide)
  have file : pixelDisk.read (AISmartFill.pressPath blackHost blackStart.node) =
      some (encoding [F32.zero,F32.zero,F32.zero] 1 1 3) := Disk.read_write_self
  have present : fileExists pixelDisk (AISmartFill.pressPath blackHost blackStart.node) = true := by
    simp [fileExists,path,Disk.present,file]
  have readable : (imageCacheRead (pixelDisk.read (AISmartFill.pressPath blackHost blackStart.node))).ok = true := by
    rw [file,read_encoding (by decide) rfl]
  have empty : blackStart.node.rt.cache = .cleared := rfl
  obtain ⟨l,loaded,key,_⟩ := validate_loads empty present readable
  refine decide_eq_true ⟨?_,?_,?_,?_,?_⟩
  · rw [loaded]
    exact l.pixels_nonempty
  · rw [loaded]
    exact l.size.1
  · rw [loaded]
    exact l.size.2.1
  · rw [loaded]
    exact l.named.2
  · rw [loaded,AISmartFill.validate_currentKey]
    exact key

end Pixel

theorem viewer_current_shown :
    (∃ start actions s, (AISmartFill.system AISmartFill.blackHost).initial start ∧
      (AISmartFill.system AISmartFill.blackHost).run start actions = some s ∧
      AISmartFill.useCache (AISmartFill.validate AISmartFill.blackHost s.disk none s.node) = true ∧
      FillCurrent (Visited (AISmartFill.system AISmartFill.blackHost) start (actions ++ [.validate none]))
        (AISmartFill.validate AISmartFill.blackHost s.disk none s.node)) ∧
    ∃ start actions s, (AIGenerate.system AIGenerate.sdHost).initial start ∧
      (AIGenerate.system AIGenerate.sdHost).run start actions = some s ∧
      AIGenerate.haveCache s.node = true ∧
      s.node.rt.cache.loadedKey ≠ AIGenerate.computeCacheKey AIGenerate.sdHost s.disk s.node ∧
      AIGenerate.haveCache (AIGenerate.validate AIGenerate.sdHost s.disk none s.node) = true ∧
      GenerateCurrent AIGenerate.sdHost s.disk
        (Visited (AIGenerate.system AIGenerate.sdHost) start (actions ++ [.validate none]))
        (AIGenerate.validate AIGenerate.sdHost s.disk none s.node) := by
  constructor
  · refine ⟨⟨AISmartFill.fresh,pixelDisk,[]⟩,
      [.connect (some AISmartFill.blackPixel) (some AISmartFill.blackPixel),.edit ⟨F32.half,1,ascii "a",[]⟩],
      ⟨AISmartFill.blackStart.node,pixelDisk,[]⟩,⟨_,rfl⟩,rfl,pixel_used,?_⟩
    exact (viewer_current _ AIGenerate.sdHost).1 _ _ _ ⟨_,rfl⟩ rfl
  · obtain ⟨pixels,length⟩ := turned_pixels
    obtain ⟨x,y⟩ := fullDisk_reads pixels
    obtain ⟨source,control,seed,idle⟩ := turnedNode_plain (fullDisk pixels)
    obtain ⟨l,held,key,result⟩ := turnedNode_loads length x
    have cache : (turnedNode (fullDisk pixels)).rt.cache = l.buffer := by
      rw [← held,polledCache,if_neg (by simp [idle])]
    have other : (polledCache (turnedNode (fullDisk pixels))).loadedKey ≠ keyOf (ascii "y") := by
      rw [held]
      exact fun same => keys_differ (key.symm.trans same)
    obtain ⟨l',loaded,_,result'⟩ := prompt_loads rfl ⟨source,control⟩ seed other length y
    have shown := (haveCache_loaded loaded).mpr ⟨by rw [result',AIGenerate.validate_knobs]; rfl,
      by rw [result',AIGenerate.validate_knobs]; rfl⟩
    refine ⟨_,turning,⟨turnedNode (fullDisk pixels),fullDisk pixels,[]⟩,⟨_,rfl⟩,turned_run _,
      (haveCache_loaded cache).mpr ⟨by rw [result]; rfl,by rw [result]; rfl⟩,?_,shown,?_⟩
    · rw [turnedNode_key,cache]
      exact fun same => keys_differ (key.symm.trans same)
    · refine ((viewer_current AISmartFill.blackHost _).2 _ _ _ ⟨_,rfl⟩ (turned_run _)).mpr ?_
      intro _ _ _ _ _
      rw [turnedNode_key]
      exact prompt_usable rfl length y

-- "y" has no file; the next _validate leaves the image where engine shows it.
theorem viewer_stale : ¬
    ((∀ host start actions s, (AISmartFill.system host).initial start →
        (AISmartFill.system host).run start actions = some s →
        FillCurrent (Visited (AISmartFill.system host) start (actions ++ [.validate none]))
          (AISmartFill.validate host s.disk none s.node)) ∧
     (∀ host start actions s, (AIGenerate.system host).initial start → (AIGenerate.system host).run start actions = some s →
        GenerateCurrent host s.disk (Visited (AIGenerate.system host) start (actions ++ [.validate none]))
          (AIGenerate.validate host s.disk none s.node))) := by
  rintro ⟨_,claim⟩
  obtain ⟨pixels,length⟩ := turned_pixels
  obtain ⟨l,held,key,result⟩ := turnedNode_loads length (show (staleDisk pixels).read _ = _ from Disk.read_write_self)
  have unusable : ¬ AIGenerate.FileUsable AIGenerate.sdHost (staleDisk pixels) (turnedNode (staleDisk pixels))
      (keyOf (ascii "y")) := by
    intro usable
    have present := usable.exists_
    rw [sdNode_resultPath rfl] at present
    exact absurd (present.symm.trans (staleDisk_absent pixels)) (by decide)
  have kept : (AIGenerate.validate AIGenerate.sdHost (staleDisk pixels) none (turnedNode (staleDisk pixels))).rt.cache =
      l.buffer := by
    rw [AIGenerate.validate_cache,turnedNode_key,AIGenerate.loadedCache_unusable (mt pollWorker_usable.mp unusable),
      pollWorker_cache,held]
  have current := claim _ _ _ _ ⟨_,rfl⟩ (turned_run (staleDisk pixels))
  have shown := (haveCache_loaded kept).mpr ⟨by rw [result,AIGenerate.validate_knobs]; rfl,
    by rw [result,AIGenerate.validate_knobs]; rfl⟩
  obtain ⟨same,_⟩ := current.cached shown
  rw [kept,AIGenerate.validate_currentKey,turnedNode_key] at same
  exact keys_differ (key.symm.trans same)

end SmartFill.Viewer
