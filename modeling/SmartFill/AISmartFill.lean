import SmartFill.CacheKey
import SmartFill.LamaTiler
import SmartFill.Nuke

namespace SmartFill.AISmartFill

def extension : Bytes := ascii ".aifill"

structure Host where
  rounding : Rounding
  onnx : Onnx F32
  defaultCacheDir : Bytes
  currentPluginDir : Bytes

structure Knobs where
  maskThreshold : F32
  backend : Int32
  modelPath : Bytes
  cacheDir : Bytes

-- What a Bake press looks at besides the cache: the inputs and the knobs that
-- go into the key.
structure Press where
  source : Input
  mask : Input
  maskThreshold : F32
  backend : Int32
  modelPath : Bytes

-- The captures of the worker's task, and the press they were taken at.
structure FillTask where
  press : Press
  rgb : List F32
  mask : List F32
  width : Int
  height : Int
  session : LamaSession

structure Node where
  knobs : Knobs
  source : Option Input
  mask : Option Input
  infoBox : Box
  session : Option LamaSession
  rt : Runtime FillTask extension

def fresh : Node :=
  ⟨⟨F32.half,1,[],[]⟩,none,none,⟨0,0,0,0⟩,none,Runtime.fresh (ascii "(idle) press Bake to inpaint")⟩

def setKnobs (node : Node) (k : Knobs) : Node := {node with knobs := k}
def setStatus (node : Node) (s : Bytes) : Node := {node with rt := node.rt.setStatus s}
def setCache (node : Node) (cache : CacheBuffer extension) : Node := {node with rt := {node.rt with cache := cache}}
def setWorker (node : Node) (worker : AiWorker (BakeRun FillTask)) : Node :=
  {node with rt := {node.rt with worker := worker}}

def isTrailing (c : UInt8) : Bool := c = 32 || c = 9 || c = 10 || c = 13

def normalizePath (s : Bytes) : Bytes := forwardSlashes (s.reverse.dropWhile isTrailing).reverse

section Op
variable (host : Host)

def resolveDefaultPaths (k : Knobs) : Knobs :=
  let k := if k.cacheDir = [] then {k with cacheDir := host.defaultCacheDir} else k
  if k.modelPath = [] ∧ host.currentPluginDir ≠ [] then
    {k with modelPath := host.currentPluginDir ++ ascii "/models/lama_fp32.onnx"}
  else k

def resultPath (node : Node) (key : Bytes) : Path :=
  let dir := normalizePath node.knobs.cacheDir
  if dir = [] ∨ key = [] then [] else dir ++ ascii "/" ++ key ++ extension

def keyFields (source mask : Option Input) (maskThreshold : F32) (backend : Int32) (modelPath : Bytes) : List Field :=
  [.string (ascii "AISmartFill.v1"),
    .opHash ((source.map (·.hash)).getD 0),
    .opHash ((mask.map (·.hash)).getD 0),
    .float maskThreshold,
    .int32 backend,
    .string (normalizePath modelPath)]

def computeCacheKey (node : Node) : Bytes :=
  cacheKey (keyFields node.source node.mask node.knobs.maskThreshold node.knobs.backend node.knobs.modelPath)

def loadedCache (disk : Files) (key : Bytes) (node : Node) : CacheBuffer extension :=
  if key = [] then .cleared
  else if key = node.rt.cache.loadedKey ∧ node.rt.cache.pixels ≠ [] then node.rt.cache
  else if resultPath node key = [] then node.rt.cache
  else if !fileExists disk (resultPath node key) then .cleared
  else (CacheBuffer.load (fun _ => true) (normalizePath node.knobs.cacheDir) key disk).getD .cleared

def tryLoadCacheForKey (disk : Files) (key : Bytes) (node : Node) : Node := setCache node (loadedCache disk key node)

def stale (cache : CacheBuffer extension) (bakingKey : Bytes) : Bool := decide (cache.loadedKey ≠ bakingKey)

def pollWorker (node : Node) : Node := {node with rt := node.rt.pollWorker host.rounding stale}

-- copy_info(0) and the defaults.
def enter (node : Node) : Node :=
  {node with infoBox := (node.source.map (·.box)).getD node.infoBox,knobs := resolveDefaultPaths host node.knobs}

def setCurrentKey (node : Node) (key : Bytes) : Node := {node with rt := {node.rt with currentKey := key}}

def validate (disk : Files) (thrown : Option Stop) (node : Node) : Node :=
  let node := enter host node
  if thrown = some .beforePoll then node else
  let node := pollWorker host node
  if thrown = some .beforeKey then node else
  let node := setCurrentKey node (computeCacheKey node)
  if thrown = some .beforeLoad then node else
  tryLoadCacheForKey disk node.rt.currentKey node

def clearCacheDir (refused : Path → Bool) (node : Node) (disk : Files) : Node × Files :=
  let node := setKnobs node (resolveDefaultPaths host node.knobs)
  if node.knobs.cacheDir = [] then (setStatus node (ascii "Cache dir not set"),disk)
  else if !isDirectory (normalizePath node.knobs.cacheDir) disk then
    (setStatus node (ascii "Cache dir does not exist"),disk)
  else
    let removed := clearable extension (normalizePath node.knobs.cacheDir) refused disk
    (setStatus (setCache node .cleared) (clearedText removed.length),removed.foldl Disk.remove disk)

def extractRgb (source : Input) : List F32 :=
  RowMajor.grid source.box.h.toNat source.box.w.toNat (fun y x =>
    [source.pixel .red (source.box.x+x) (source.box.y+y),source.pixel .green (source.box.x+x) (source.box.y+y),
      source.pixel .blue (source.box.x+x) (source.box.y+y)])

def extractMask (box : Box) (mask : Input) (threshold : F32) : List F32 :=
  RowMajor.grid box.h.toNat box.w.toNat (fun y x =>
    [if F32.ge (mask.pixel .alpha (box.x+x) (box.y+y)) threshold then F32.one else F32.zero])

def backendOf (backend : Int32) : LamaBackend := if backend = 1 then .cuda else .cpu

def wantedSession (k : Knobs) : LamaSession := ⟨normalizePath k.modelPath,backendOf k.backend⟩

def taskOps : List TaskOp :=
  [.setStatusText (ascii "Preparing"),.setProgress ⟨0x3d4ccccd⟩,.setStatusText (ascii "Inferencing"),.produce,
    .setStatusText (ascii "Writing cache"),.setProgress ⟨0x3f6e147b⟩,.write,.setProgress F32.one]

-- validate(true), unless Nuke finds the Op validated already.
def revalidate (disk : Files) (validated : Option (Option Stop)) (node : Node) : Node :=
  match validated with
  | none => node
  | some thrown => validate host disk thrown node

def announceHit (node : Node) (key : Bytes) : Node :=
  setCurrentKey {node with rt := (node.rt.setStatus (ascii "Already cached for this input")).setProgress F32.one} key

-- start_bake up to worker_.start.
def prepareBake (disk : Files) (validated : Option (Option Stop)) (node : Node) : Outcome Node FillTask :=
  if node.rt.worker.state = .running then .stopped (setStatus node (ascii "Already cooking")) else
  let node := setWorker node node.rt.worker.reset
  match node.source,node.mask with
  | none,_ => .stopped (setStatus node (ascii "Error: no source"))
  | some _,none => .stopped (setStatus node (ascii "Error: no mask"))
  | some source,some mask =>
    let node := revalidate host disk validated (setKnobs node (resolveDefaultPaths host node.knobs))
    let box := source.box
    if box.w ≤ 0 ∨ box.h ≤ 0 then .stopped (setStatus node (ascii "Error: empty source")) else
    let key := computeCacheKey node
    let path := resultPath node key
    if fileExists disk path then
      .cached (tryLoadCacheForKey disk key (announceHit node key))
    else if !source.isIop || !mask.isIop then .stopped (setStatus node (ascii "Error: invalid inputs")) else
    let rgb := extractRgb source
    let maskPixels := extractMask box mask node.knobs.maskThreshold
    let session := node.session.getD (wantedSession node.knobs)
    let press := ⟨source,mask,node.knobs.maskThreshold,node.knobs.backend,node.knobs.modelPath⟩
    .ready (setCurrentKey {node with session := some session} key)
      ⟨⟨press,rgb,maskPixels,box.w,box.h,session⟩,key,path,box.w,box.h⟩

def startBake (disk : Files) (validated : Option (Option Stop)) (node : Node) : Node :=
  match prepareBake host disk validated node with
  | .stopped node | .cached node => node
  | .ready node job => {node with rt := node.rt.launch job taskOps}

-- Where an exception can leave start_bake once the worker is reset: before
-- validate(true) is over, after it, with the cache file announced but not loaded,
-- with the session made, and with all said before worker_.start. knob_changed
-- catches it; AIGenerate's does not, and is not followed there.
inductive BakeStop where
  | entered
  | validated
  | hit
  | session
  | announced
  deriving DecidableEq

def thrownBake (disk : Files) (validated : Option (Option Stop)) (stop : BakeStop) (node : Node) : Option Node :=
  if node.rt.worker.state = .running then none else
  let entered := setWorker node node.rt.worker.reset
  let later := revalidate host disk validated (setKnobs entered (resolveDefaultPaths host entered.knobs))
  match stop,prepareBake host disk validated node with
  | .entered,_ => some entered
  | .validated,_ => if node.source.isSome && node.mask.isSome then some later else none
  | .hit,.cached _ => some (announceHit later (computeCacheKey later))
  | .session,.ready _ job => some {later with session := some job.task.session}
  | .announced,.ready after job => some {after with rt := after.rt.announce job.key}
  | _,_ => none

def backend : Backend FillTask := fun task call cancels =>
  LamaTiler.inpaintImage host.rounding.ops (LamaSession.run host.rounding.ops host.onnx task.session call)
    task.rgb task.mask task.width task.height (fun n => decide (cancels ≠ some n))

end Op

def useCache (node : Node) : Bool :=
  decide (node.rt.cache.pixels ≠ [] ∧ 0 < node.rt.cache.width ∧ 0 < node.rt.cache.height ∧
    node.rt.cache.loadedKey ≠ [] ∧ node.rt.cache.loadedKey = node.rt.currentKey)

def channelIndex : Channel → Option Nat
  | .red => some 0
  | .green => some 1
  | .blue => some 2
  | .alpha | .other _ => none

-- What engine puts into channel c at (xi,y), given input 0's row there; none
-- when it reads past the end of cached_pixels_.
def engineAt (node : Node) (src : Channel → Int → Int → F32) (c : Channel) (xi y : Int) : Option F32 :=
  if !useCache node then some (src c xi y) else
  let cacheY := y - node.infoBox.y
  match channelIndex c with
  | none => some (src c xi y)
  | some k =>
    if cacheY < 0 ∨ node.rt.cache.height ≤ cacheY then some (src c xi y) else
    let cacheX := xi - node.infoBox.x
    if 0 ≤ cacheX ∧ cacheX < node.rt.cache.width then
      node.rt.cache.pixels[(cacheY*node.rt.cache.width*3 + (cacheX*3 + k)).toNat]?
    else some (src c xi y)

def engine (node : Node) (src : Channel → Int → Int → F32) (y x r : Int) (channels : List Channel) :
    List (Channel × List (Option F32)) :=
  channels.map (fun c => (c,(List.range (r-x).toNat).map (fun i : Nat => engineAt node src c (x+i) y)))

end SmartFill.AISmartFill
