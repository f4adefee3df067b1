import SmartFill.CacheKey
import SmartFill.Loras
import SmartFill.Lib.RowMajor
import SmartFill.Nuke

namespace SmartFill.AIGenerate

def extension : Bytes := ascii ".aigen"

structure Knobs where
  prompt : Bytes
  negativePrompt : Bytes
  width : Int32
  height : Int32
  steps : Int32
  cfgScale : F32
  seed : Int32
  strength : F32
  modelType : Int32
  modelsDir : Bytes
  diffusionModelPath : Bytes
  vaePath : Bytes
  clipLPath : Bytes
  t5xxlPath : Bytes
  cacheDir : Bytes
  lorasText : Bytes
  lorasDir : Bytes
  controlNetPath : Bytes
  controlStrength : F32

def defaultKnobs : Knobs :=
  ⟨[],[],1024,1024,4,F32.one,-1,⟨0x3f400000⟩,0,[],[],[],[],[],[],[],[],[],⟨0x3f666666⟩⟩

-- The captures of the worker's task, and the inputs connected at the press.
structure SdJob where
  paths : SdModelPaths
  params : SdGenerateParams
  source : Option Input
  control : Option Input

-- What the code around the Op supplies. The process-wide SdSession is seen from
-- one node: whatever ensure_loaded and generate come to for its task.
structure Host where
  rounding : Rounding
  stof : Stof
  backend : Backend SdJob
  defaultCacheDir : Bytes
  currentPluginDir : Bytes

structure Node where
  knobs : Knobs
  source : Option Input
  control : Option Input
  lastResolvedSeed : Int64
  lastSeedText : Bytes
  rt : Runtime SdJob extension

def fresh : Node := ⟨defaultKnobs,none,none,0,[],Runtime.fresh (ascii "(idle)")⟩

def setStatus (node : Node) (s : Bytes) : Node := {node with rt := node.rt.setStatus s}
def setCache (node : Node) (cache : CacheBuffer extension) : Node := {node with rt := {node.rt with cache := cache}}
def setWorker (node : Node) (worker : AiWorker (BakeRun SdJob)) : Node :=
  {node with rt := {node.rt with worker := worker}}

structure EffectivePaths where
  modelsDir : Bytes
  diffusionModel : Bytes
  vae : Bytes
  clipL : Bytes
  t5xxl : Bytes
  cacheDir : Bytes
  lorasDir : Bytes
  controlNet : Bytes

def pick (knobValue fallback : Bytes) : Bytes := if knobValue = [] then fallback else knobValue

def pickOptional (disk : Files) (knobValue defaultPath : Bytes) (tryDefault : Bool) : Bytes :=
  if knobValue ≠ [] then knobValue
  else if !tryDefault || defaultPath = [] then []
  else if fileExists disk defaultPath then defaultPath else []

section Op
variable (host : Host)

def computeEffectivePaths (disk : Files) (k : Knobs) : EffectivePaths :=
  let modelsDir :=
    if k.modelsDir ≠ [] then k.modelsDir
    else if host.currentPluginDir ≠ [] then host.currentPluginDir ++ ascii "/models" else []
  let isFlux := decide (k.modelType = 0)
  { modelsDir := modelsDir
    cacheDir := pick k.cacheDir host.defaultCacheDir
    diffusionModel :=
      if isFlux then pick k.diffusionModelPath (modelsDir ++ ascii "/flux1-schnell-q4_0.gguf") else k.diffusionModelPath
    vae := pickOptional disk k.vaePath (modelsDir ++ ascii "/ae.safetensors") isFlux
    clipL := pickOptional disk k.clipLPath (modelsDir ++ ascii "/clip_l.safetensors") isFlux
    t5xxl := pickOptional disk k.t5xxlPath (modelsDir ++ ascii "/t5-v1_1-xxl-encoder-Q8_0.gguf") isFlux
    lorasDir := pick k.lorasDir (modelsDir ++ ascii "/loras")
    controlNet := k.controlNetPath }

def nodePaths (disk : Files) (node : Node) : EffectivePaths := computeEffectivePaths host disk node.knobs

def nodeLoras (disk : Files) (node : Node) : List LoRASpec :=
  Loras.parseLoras host.stof node.knobs.lorasText (nodePaths host disk node).lorasDir

def hashField (input : Input) : Field := .int64 ⟨input.hash⟩

def loraFields (loras : List LoRASpec) : List Field :=
  loras.flatMap (fun l => [.string (forwardSlashes l.path),.float l.weight])

def inputFields : Option Input → List Field
  | some input => [hashField input]
  | none => [.string (ascii "no_input")]

def imageFields (strength : F32) (source : Option Input) : List Field :=
  .string (ascii "img2img") :: (if source.isSome then [.float strength] else []) ++ inputFields source

def controlFields (controlNet : Bytes) (controlStrength : F32) (control : Option Input) : List Field :=
  [.string (ascii "controlnet"),.string (forwardSlashes controlNet)] ++
    if controlNet ≠ [] then .float controlStrength :: inputFields control else []

-- compute_cache_key's add calls
def keyFields (disk : Files) (node : Node) : List Field :=
  let ep := nodePaths host disk node
  let loras := nodeLoras host disk node
  [.string (ascii "AIGenerate.v1"),
    .int32 node.knobs.modelType,
    .string node.knobs.prompt,
    .string node.knobs.negativePrompt,
    .int32 node.knobs.width,
    .int32 node.knobs.height,
    .int32 node.knobs.steps,
    .float node.knobs.cfgScale,
    .int64 node.lastResolvedSeed,
    .string (forwardSlashes ep.diffusionModel),
    .string (forwardSlashes ep.vae),
    .string (forwardSlashes ep.clipL),
    .string (forwardSlashes ep.t5xxl),
    .string (ascii "loras"),
    .int32 (Int32.ofNat loras.length)] ++
  loraFields loras ++
  imageFields node.knobs.strength node.source ++
  controlFields ep.controlNet node.knobs.controlStrength node.control

def computeCacheKey (disk : Files) (node : Node) : Bytes := cacheKey (keyFields host disk node)

def resultPath (disk : Files) (node : Node) (key : Bytes) : Path :=
  cachePath extension (nodePaths host disk node).cacheDir key

def imageUsable (res : ImageCache.ImageCacheReadResult) : Bool :=
  decide (res.channels = 3 ∧ 0 < res.width ∧ 0 < res.height)

-- The four cache members after try_load_cache_for_key: a file that is missing
-- or refused leaves them as they are.
def loadedCache (disk : Files) (key : Bytes) (node : Node) : CacheBuffer extension :=
  if key = [] ∨ key = node.rt.cache.loadedKey then node.rt.cache
  else if resultPath host disk node key = [] then node.rt.cache
  else if !fileExists disk (resultPath host disk node key) then node.rt.cache
  else (CacheBuffer.load imageUsable (nodePaths host disk node).cacheDir key disk).getD node.rt.cache

def tryLoadCacheForKey (disk : Files) (key : Bytes) (node : Node) : Node := setCache node (loadedCache host disk key node)

def stale (cache : CacheBuffer extension) (bakingKey : Bytes) : Bool :=
  decide (bakingKey ≠ [] ∧ cache.loadedKey ≠ bakingKey)

def pollWorker (node : Node) : Node := {node with rt := node.rt.pollWorker host.rounding stale}

def setCurrentKey (node : Node) (key : Bytes) : Node := {node with rt := {node.rt with currentKey := key}}

def validate (disk : Files) (thrown : Option Stop) (node : Node) : Node :=
  if thrown = some .beforePoll then node else
  let node := pollWorker host node
  if thrown = some .beforeKey then node else
  let node := setCurrentKey node (computeCacheKey host disk node)
  if thrown = some .beforeLoad then node else
  tryLoadCacheForKey host disk node.rt.currentKey node

def clearCacheOnDisk (refused : Path → Bool) (node : Node) (disk : Files) : Node × Files :=
  let dir := (nodePaths host disk node).cacheDir
  if dir = [] then (node,disk)
  else if !isDirectory dir disk then (setStatus node (ascii "Cache dir does not exist"),disk)
  else
    let removed := clearable extension dir refused disk
    (setCache (setStatus node (clearedText removed.length)) .cleared,removed.foldl Disk.remove disk)

-- What a press meets on its way: the random draw, the input reads that are
-- aborted, and whether the cache directory can be made.
inductive Abort where
  | none
  | validating
  | row (y : Int)
  deriving DecidableEq

structure Chance where
  draw : Int64
  sourceAbort : Abort
  controlAbort : Abort
  mkdirRefused : Bool

-- to_u8 and the loops of read_input_rgb_u8, in the arithmetic given; rows are
-- flipped on write, the top row comes first.
def toU8 {F : Type} (ops : FloatOps F) (v : F) : UInt8 :=
  if ops.ge ops.zero v then 0
  else if ops.ge v ops.one then 255
  else UInt8.ofNat (ops.trunc (ops.add (ops.mul v (ops.ofInt 255)) ops.half)).toNat

def readRgbU8 {F : Type} (ops : FloatOps F) (pixel : Channel → Int → Int → F) (W H : Int) : RgbImage :=
  ⟨RowMajor.grid H.toNat W.toNat (fun row x =>
    [.red,.green,.blue].map (fun c => toU8 ops (pixel c x (H-1-row)))),W,H⟩

def readInputRgbU8 (input : Input) (abort : Abort) : Except Bytes RgbImage :=
  let W := input.formatWidth
  let H := input.formatHeight
  match abort with
  | .validating => .error (ascii "input validate aborted")
  | _ =>
    if W ≤ 0 ∨ H ≤ 0 then .error (ascii "input format has zero dimensions")
    else if W > 8192 ∨ H > 8192 then .error (ascii "input dimensions exceed 8192x8192")
    else
      match abort with
      | .row y => .error (ascii "input cook aborted at row " ++ decimal y)
      | _ => .ok (readRgbU8 host.rounding.ops input.pixel W H)

-- dynamic_cast<Iop*>
def iop (input : Option Input) : Option Input := input.filter (·.isIop)

def readOptional (input : Option Input) (abort : Abort) : Except Bytes RgbImage :=
  match iop input with
  | none => .ok RgbImage.none
  | some input => readInputRgbU8 host input abort

def resolveSeed (chance : Chance) (node : Node) : Node :=
  let seed := if 0 ≤ node.knobs.seed then node.knobs.seed.toInt64 else chance.draw
  {node with lastResolvedSeed := seed,lastSeedText := decimal seed.toInt}

def refusal (disk : Files) (node : Node) : Option Bytes :=
  let k := node.knobs
  let ep := nodePaths host disk node
  let missing (p : Bytes) := p ≠ [] ∧ fileExists disk p = false
  if k.prompt = [] then some (ascii "Error: empty prompt")
  else if k.width < 64 ∨ k.height < 64 ∨ 4096 < k.width ∨ 4096 < k.height then some (ascii "Error: bad dimensions")
  else if k.steps < 1 ∨ 100 < k.steps then some (ascii "Error: bad steps")
  else if ep.diffusionModel = [] then some (ascii "Error: diffusion model path missing")
  else if k.modelType = 0 ∧ (ep.vae = [] ∨ ep.clipL = [] ∨ ep.t5xxl = []) then
    some (ascii "Error: FLUX model paths missing")
  else if fileExists disk ep.diffusionModel = false then some (ascii "Error: missing diffusion model file")
  else if missing ep.vae then some (ascii "Error: missing VAE file")
  else if missing ep.clipL then some (ascii "Error: missing CLIP-L file")
  else if missing ep.t5xxl then some (ascii "Error: missing T5-XXL file")
  else if missing ep.controlNet then some (ascii "Error: missing ControlNet file")
  else none

-- The two input reads of start_bake; ControlNet pixels only with a model.
def readImages (disk : Files) (chance : Chance) (node : Node) : Except Bytes (RgbImage × RgbImage) :=
  match readOptional host node.source chance.sourceAbort with
  | .error _ => .error (ascii "Error: img2img input read failed")
  | .ok init =>
    if (nodePaths host disk node).controlNet = [] then .ok (init,RgbImage.none) else
    match readOptional host node.control chance.controlAbort with
    | .error _ => .error (ascii "Error: ControlNet input read failed")
    | .ok control => .ok (init,control)

-- A ControlNet model without an input to guide it is not loaded.
def activeControlNet (disk : Files) (node : Node) : Bytes :=
  if (iop node.control).isSome then (nodePaths host disk node).controlNet else []

def makeCacheDir (disk : Files) (chance : Chance) (path : Path) : Files :=
  if path = [] ∨ chance.mkdirRefused then disk else disk.makeDirs (ImageCache.ancestors path)

def keptLoras (disk : Files) (loras : List LoRASpec) : List LoRASpec := loras.filter (fun l => fileExists disk l.path)

def taskOps : List TaskOp :=
  [.setStatusText (ascii "Loading model"),.setProgress ⟨0x3c23d70a⟩,.load,.setStatusText (ascii "Generating"),
    .setProgress ⟨0x3d4ccccd⟩,.produce,.setStatusText (ascii "Writing cache"),.setProgress ⟨0x3f6e147b⟩,.write,
    .setProgress F32.one]

def sdParams (node : Node) (loras : List LoRASpec) (images : RgbImage × RgbImage) : SdGenerateParams :=
  { prompt := node.knobs.prompt
    negativePrompt := node.knobs.negativePrompt
    width := node.knobs.width
    height := node.knobs.height
    steps := node.knobs.steps
    seed := node.lastResolvedSeed
    cfgScale := node.knobs.cfgScale
    loras := loras
    initImage := images.1
    strength := node.knobs.strength
    controlImage := images.2
    controlStrength := node.knobs.controlStrength }

-- The job start_bake hands the worker, from a node whose seed is resolved and
-- the file system once the cache directory is made.
def bakeJob (disk made : Files) (node : Node) (images : RgbImage × RgbImage) : BakeJob SdJob :=
  let ep := nodePaths host disk node
  let key := computeCacheKey host disk node
  let paths := ⟨ep.diffusionModel,ep.vae,ep.clipL,ep.t5xxl,activeControlNet host disk node⟩
  let params := sdParams node (keptLoras made (nodeLoras host disk node)) images
  ⟨⟨paths,params,node.source,node.control⟩,key,resultPath host disk node key,node.knobs.width.toInt,
    node.knobs.height.toInt⟩

def announceHit (node : Node) (key : Bytes) : Node :=
  setCurrentKey {node with rt := (node.rt.setStatus (ascii "Already cached for this input")).setProgress F32.one} key

-- start_bake up to worker_.start, and the file system it leaves.
def prepareBake (disk : Files) (chance : Chance) (node : Node) : Outcome Node SdJob × Files :=
  if node.rt.worker.state = .running then (.stopped (setStatus node (ascii "Already cooking")),disk) else
  match refusal host disk node with
  | some status => (.stopped (setStatus node status),disk)
  | none =>
    match readImages host disk chance node with
    | .error status => (.stopped (setStatus node status),disk)
    | .ok images =>
      let node := resolveSeed chance node
      let key := computeCacheKey host disk node
      let path := resultPath host disk node key
      let made := makeCacheDir disk chance path
      if fileExists made path then
        (.cached (tryLoadCacheForKey host made key (announceHit node key)),made)
      else (.ready node (bakeJob host disk made node images),made)

def startBake (disk : Files) (chance : Chance) (node : Node) : Node × Files :=
  match prepareBake host disk chance node with
  | (.stopped node,disk) | (.cached node,disk) => (node,disk)
  | (.ready node job,disk) => ({node with rt := node.rt.launch job taskOps},disk)

end Op

def haveCache (node : Node) : Bool :=
  decide (node.rt.cache.pixels ≠ [] ∧ node.rt.cache.width = node.knobs.width.toInt ∧
    node.rt.cache.height = node.knobs.height.toInt ∧ 0 < node.rt.cache.width ∧ 0 < node.rt.cache.height)

def channelOffset : Channel → Option Nat
  | .red => some 0
  | .green => some 1
  | .blue => some 2
  | .alpha | .other _ => none

-- What engine puts into channel c at (i,y); the cache is stored top-down. none
-- when it reads past the end of cached_pixels_.
def engineAt (node : Node) (c : Channel) (i y : Int) : Option F32 :=
  if !haveCache node then some F32.zero else
  let H := node.rt.cache.height
  let W := node.rt.cache.width
  let flippedY := (H-1)-y
  if flippedY < 0 ∨ H ≤ flippedY then some F32.zero else
  match channelOffset c with
  | none => some F32.zero
  | some offset =>
    if i < 0 ∨ W ≤ i then some F32.zero
    else node.rt.cache.pixels[(flippedY*W*3 + (i*3 + offset)).toNat]?

def engine (node : Node) (y x r : Int) (channels : List Channel) : List (Channel × List (Option F32)) :=
  channels.map (fun c => (c,(List.range (r-x).toNat).map (fun i : Nat => engineAt node c (x+i) y)))

end SmartFill.AIGenerate
